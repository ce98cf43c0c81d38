import QuantAgent.Engine.Causality

namespace QuantAgent
set_option autoImplicit true

theorem barsByDate_get? (rows : List (OhlcvBar F)) (date : Date) :
    (barsByDate rows).get? date =
      if rows.filter (fun bar => bar.date = date) = [] then none
      else some (Dict.index OhlcvBar.ticker (rows.filter fun bar => bar.date = date)) :=
  Dict.get?_group ..

theorem barsByTicker_get? (rows : List (OhlcvBar F)) (ticker : Ticker) :
    (barsByTicker rows).get? ticker =
      if rows.filter (fun bar => bar.ticker = ticker) = [] then none
      else some (rows.filter fun bar => bar.ticker = ticker) := by
  have hfold : ∀ l : List (OhlcvBar F), l.foldl (fun bars bar => bars ++ [bar]) [] = l := by
    intro l
    induction l using List.reverseRecOn with
    | nil => rfl
    | append_singleton l a ih => rw [List.foldl_append, ih, List.foldl_cons, List.foldl_nil]
  rw [barsByTicker, Dict.get?_group, hfold]

/-- A bar of a day is the last row with its date and ticker. -/
theorem mem_rows_of_bar {rows : List (OhlcvBar F)} (h : (barsByDate rows).get? date = some bars)
    (hbar : bars.get? ticker = some bar) : bar ∈ rows ∧ bar.date = date ∧ bar.ticker = ticker := by
  rw [barsByDate_get?] at h
  split at h
  · cases h
  · cases h
    obtain ⟨hmem, hticker⟩ := Dict.mem_of_get?_index hbar
    obtain ⟨hmem, hdate⟩ := List.mem_filter.mp hmem
    exact ⟨hmem, of_decide_eq_true hdate, hticker⟩

theorem bar_of_mem_rows {rows : List (OhlcvBar F)} (h : bar ∈ rows) :
    ∃ bars b, (barsByDate rows).get? bar.date = some bars ∧ bars.get? bar.ticker = some b := by
  have hmem : bar ∈ rows.filter fun b => b.date = bar.date := by simp [h]
  have hindex : bar.ticker ∈ Dict.index OhlcvBar.ticker (rows.filter fun b => b.date = bar.date) :=
    Dict.mem_index.mpr ⟨bar, hmem, rfl⟩
  obtain ⟨b, hb⟩ := Dict.mem_iff_get?.mp hindex
  refine ⟨_, b, ?_, hb⟩
  rw [barsByDate_get?, if_neg (List.ne_nil_of_mem hmem)]

/-- The bars of a day are in the order of their tickers. -/
theorem barsByDate_sorted (r : OhlcvRows F) (h : (barsByDate r.rows).get? date = some bars) :
    bars.keys.Pairwise (· < ·) := by
  rw [barsByDate_get?] at h
  split at h
  · cases h
  · cases h
    apply Dict.keys_index_pairwise
    refine (r.sorted.sublist List.filter_sublist).imp_of_mem ?_
    intro a b ha hb hle
    have hda : a.date = date := by simpa using (List.mem_filter.mp ha).2
    have hdb : b.date = date := by simpa using (List.mem_filter.mp hb).2
    rcases Prod.Lex.le_iff.mp hle with hlt | ⟨-, hticker⟩
    · exact absurd (hda.trans hdb.symm) hlt.ne
    · exact hticker

theorem textLT_eq_false {a b : String} (h : a < b) : textLT b a = false := by
  rw [textLT_eq]
  exact decide_eq_false h.asymm

theorem sortKeys_bars {bars : Bars F} (h : bars.keys.Pairwise (· < ·)) :
    bars.sortKeys textLT = bars := Dict.sortKeys_eq_self (h.imp textLT_eq_false)

section
variable {F : Type} [PyFloat F]

namespace MarketInputs
variable (m : MarketInputs F)

theorem prepared_barsByDate (date : Date) :
    (prepareMarketData m).barsByDate.get? date = (barsByDate m.ohlcvRows.rows).get? date := by
  change (Dict.mapVal _ _).get? date = _
  rw [Dict.get?_mapVal]
  cases h : (barsByDate m.ohlcvRows.rows).get? date with
  | none => rfl
  | some bars =>
    rw [Option.map_some, sortKeys_bars (barsByDate_sorted _ h), ite_self]

theorem mem_dates : date ∈ m.dates ↔ ∃ bar ∈ m.ohlcvRows.rows, bar.date = date := by
  rw [dates_eq]
  change date ∈ Dict.filter _ _ ↔ _
  rw [Dict.mem_iff_get?]
  simp only [Dict.get?_filter, Option.filter_eq_some_iff]
  constructor
  · rintro ⟨bars, hbars, -⟩
    exact Dict.mem_group.mp (Dict.mem_of_get? hbars)
  · rintro ⟨bar, hbar, rfl⟩
    obtain ⟨bars, b, hbars, hb⟩ := bar_of_mem_rows hbar
    refine ⟨bars, hbars, decide_eq_true ?_⟩
    exact List.ne_nil_of_mem (Dict.entry_mem_of_get? hb)

theorem mem_sortedRows (h : (barsByDate m.ohlcvRows.rows).get? date = some bars)
    (hbar : bars.get? ticker = some bar) :
    bar ∈ m.sortedRows ∧ bar.date = date ∧ bar.ticker = ticker := by
  obtain ⟨hrow, hdate, hticker⟩ := mem_rows_of_bar h hbar
  refine ⟨?_, hdate, hticker⟩
  unfold sortedRows
  split
  · exact hrow
  · apply List.mem_flatMap.mpr
    refine ⟨date, m.mem_dates.mpr ⟨bar, hrow, hdate⟩, ?_⟩
    rw [h]
    change bar ∈ (bars.sortKeys textLT).values
    rw [sortKeys_bars (barsByDate_sorted _ h)]
    exact List.mem_map.mpr ⟨_, Dict.entry_mem_of_get? hbar, rfl⟩

/-- Every bar has a metric row. -/
theorem metricsByKey_isSome (h : bar ∈ m.ohlcvRows.rows) :
    ∃ metrics, m.metricsByKey bar.date bar.ticker = some metrics := by
  obtain ⟨bars, b, hbars, hb⟩ := bar_of_mem_rows h
  have hkept : ∀ (row : Metrics F) new, ∃ metrics, updateRow (some row) new = some metrics := by
    intro row new
    cases new <;> exact ⟨_, rfl⟩
  unfold metricsByKey
  simp only [hbars, Option.bind_some, hb, Option.map_some]
  obtain ⟨row, hrow⟩ := hkept b.metrics (m.talib.bind fun library =>
    library.compute m.required (orderedBars false (m.tickerBars bar.ticker)) bar.date)
  rw [hrow]
  obtain ⟨row', hrow'⟩ := hkept row (computeDerivedMetricsForBars
    (orderedBars m.inputsNormalized (m.tickerBars bar.ticker)) m.required bar.date)
  rw [hrow']
  exact hkept row' _

end MarketInputs

theorem firstMissing_none {metricsByKey : MetricTable F} {required : List String} {ticker : Ticker}
    {bars : List (OhlcvBar F)}
    (h : ∀ bar ∈ bars, ∃ metrics, metricsByKey bar.date ticker = some metrics ∧
      ∀ name ∈ required, metricPresent name metrics = true) :
    BacktestEngine.firstMissing metricsByKey required ticker bars = .ok none := by
  induction bars with
  | nil => rfl
  | cons bar bars ih =>
    obtain ⟨metrics, hmetrics, hpresent⟩ := h bar (List.mem_cons_self ..)
    have hmissing : (required.filter fun name => !metricPresent name metrics) = [] := by
      rw [List.filter_eq_nil_iff]
      intro name hname
      simp [hpresent name hname]
    rw [BacktestEngine.firstMissing, hmetrics]
    simp only [Option.elim_some, pure_bind, hmissing, if_true]
    exact ih fun bar hbar => h bar (List.mem_cons_of_mem _ hbar)

/-- An engine whose bars all carry the required metrics trades every ticker. -/
theorem selectTickers_all {eng : BacktestEngine F} (m : MarketInputs F)
    (hprepared : eng.prepared = prepareMarketData m)
    (h : ∀ bar ∈ m.ohlcvRows.rows, ∀ metrics, m.metricsByKey bar.date bar.ticker = some metrics →
      ∀ name ∈ eng.requiredMetrics, metricPresent name metrics = true) :
    eng.selectTickers = .ok ((barsByTicker m.ohlcvRows.rows).keys, []) := by
  have hkeys : (barsByTicker m.ohlcvRows.rows).keys = eng.prepared.barsByTicker.keys := by
    rw [hprepared]
    exact (Dict.keys_mapVal _ _).symm
  have hstep : ∀ included, ∀ e ∈ eng.prepared.barsByTicker.entries,
      eng.selectTicker included e = .ok (included ++ [e.1], []) := by
    rintro included ⟨ticker, bars⟩ he
    have hget := Dict.get?_of_entry_mem he
    rw [hprepared] at hget
    change (Dict.mapVal _ _).get? ticker = _ at hget
    rw [Dict.get?_mapVal, barsByTicker_get?] at hget
    have hrows : ∀ bar ∈ bars, bar ∈ m.ohlcvRows.rows ∧ bar.ticker = ticker := by
      obtain ⟨old, hold, rfl⟩ := Option.map_eq_some_iff.mp hget
      split at hold
      · cases hold
      · cases hold
        intro bar hbar
        have hmem : bar ∈ m.ohlcvRows.rows.filter fun bar => bar.ticker = ticker := by
          unfold orderedBars at hbar
          split at hbar
          · exact hbar
          · exact (mem_pySorted _).mp hbar
        simpa using List.mem_filter.mp hmem
    have hnone : BacktestEngine.firstMissing eng.prepared.metricsByKey eng.requiredMetrics ticker
        bars = .ok none := by
      apply firstMissing_none
      intro bar hbar
      obtain ⟨hrow, rfl⟩ := hrows bar hbar
      obtain ⟨metrics, hmetrics⟩ := m.metricsByKey_isSome hrow
      refine ⟨metrics, ?_, h bar hrow metrics hmetrics⟩
      rw [hprepared]
      exact hmetrics
    unfold BacktestEngine.selectTicker
    rw [hnone]
    rfl
  rw [hkeys, BacktestEngine.selectTickers, Dict.keys]
  have hloop : ∀ (entries : List (Ticker × List (OhlcvBar F))) included,
      (∀ e ∈ entries, e ∈ eng.prepared.barsByTicker.entries) →
      traceM eng.selectTicker included entries = .ok (included ++ entries.map Prod.fst, []) := by
    intro entries
    induction entries with
    | nil => exact fun included _ => by rw [List.map_nil, List.append_nil]; rfl
    | cons e entries ih =>
      intro included hmem
      rw [traceM, hstep included e (hmem e (List.mem_cons_self ..))]
      change (traceM eng.selectTicker (included ++ [e.1]) entries >>= _) = _
      have happ : included ++ (e :: entries).map Prod.fst =
          included ++ [e.1] ++ entries.map Prod.fst := by simp
      rw [ih _ fun e he => hmem e (List.mem_cons_of_mem _ he), happ]
      rfl
  exact hloop _ [] fun _ => id

theorem todayBars_all {eng : BacktestEngine F} (m : MarketInputs F)
    (hprepared : eng.prepared = prepareMarketData m) (date : Date) :
    eng.todayBars (barsByTicker m.ohlcvRows.rows).keys date =
      (barsByDate m.ohlcvRows.rows).get? date := by
  rw [BacktestEngine.todayBars, hprepared, m.prepared_barsByDate]
  cases h : (barsByDate m.ohlcvRows.rows).get? date with
  | none => rfl
  | some bars =>
    rw [Option.map_some]
    congr 1
    apply Dict.filter_eq_self
    intro ticker bar hbar
    obtain ⟨hrow, -, rfl⟩ := mem_rows_of_bar h hbar
    exact decide_eq_true (Dict.mem_group.mpr ⟨bar, hrow, rfl⟩)

theorem ofPrepared_ok {eng : BacktestEngine F}
    (h : BacktestEngine.ofPrepared spec config prepared actions scores = .ok eng) :
    eng.spec = spec ∧ eng.config = config ∧ eng.preparedMarketData = some prepared ∧
      eng.generatedActions = actions ∧ eng.generatedScores = scores := by
  unfold BacktestEngine.ofPrepared at h
  split at h
  · split at h
    · cases h
      exact ⟨rfl, rfl, rfl, rfl, rfl⟩
    · cases h
  · cases h

theorem prepared_of_some {eng : BacktestEngine F} (h : eng.preparedMarketData = some prepared) :
    eng.prepared = prepared := by
  unfold BacktestEngine.prepared
  split
  · rename_i p hp
    exact Option.some.inj (hp.symm.trans h)
  · rename_i hp
    cases hp.symm.trans h

/-- The rows dated up to a cutoff. -/
def rowsUpTo (cutoff : Date) (rows : List (OhlcvBar F)) : List (OhlcvBar F) :=
  rows.filter fun bar => decide (bar.date ≤ cutoff)

/-- The values of a series that is aligned with the prepared rows, up to a cutoff. -/
def seriesUpTo (cutoff : Date) (prepared : PreparedMarketData F) (values : List β) :
    List (OhlcvBar F × β) :=
  (prepared.ohlcvRows.zip values).filter fun e => decide (e.1.date ≤ cutoff)

omit [PyFloat F] in
theorem rowsUpTo_on {rows₁ rows₂ : List (OhlcvBar F)} (h : rowsUpTo cutoff rows₁ = rowsUpTo cutoff rows₂)
    (hdate : date ≤ cutoff) :
    (rows₁.filter fun bar => bar.date = date) = rows₂.filter fun bar => bar.date = date := by
  have hon : ∀ rows : List (OhlcvBar F), (rows.filter fun bar => bar.date = date) =
      (rowsUpTo cutoff rows).filter fun bar => bar.date = date := by
    intro rows
    unfold rowsUpTo
    rw [List.filter_filter]
    apply List.filter_congr
    intro bar _
    by_cases hbar : bar.date = date
    · simp [hbar, hdate]
    · simp [hbar]
  rw [hon, h, ← hon]

omit [PyFloat F] in
theorem barsByDate_upTo {rows₁ rows₂ : List (OhlcvBar F)}
    (h : rowsUpTo cutoff rows₁ = rowsUpTo cutoff rows₂) (hdate : date ≤ cutoff) :
    (barsByDate rows₁).get? date = (barsByDate rows₂).get? date := by
  rw [barsByDate_get?, barsByDate_get?, rowsUpTo_on h hdate]

theorem MarketInputs.dates_upTo {m₁ m₂ : MarketInputs F}
    (h : rowsUpTo cutoff m₁.ohlcvRows.rows = rowsUpTo cutoff m₂.ohlcvRows.rows)
    (hdate : date ≤ cutoff) : date ∈ m₁.dates ↔ date ∈ m₂.dates := by
  have hfilter := rowsUpTo_on h hdate
  have hmem : ∀ m : MarketInputs F, date ∈ m.dates ↔
      m.ohlcvRows.rows.filter (fun bar => bar.date = date) ≠ [] := by
    intro m
    rw [m.mem_dates, ne_eq, List.filter_eq_nil_iff]
    simp
  rw [hmem, hmem, hfilter]

/-- The value a series carries for a row dated up to the cutoff is read off its part up to there. -/
theorem lastWhere_upTo {prepared₁ prepared₂ : PreparedMarketData F} {values₁ values₂ : List β}
    (h : seriesUpTo cutoff prepared₁ values₁ = seriesUpTo cutoff prepared₂ values₂)
    (hdate : date ≤ cutoff) (ticker : Ticker) :
    lastWhere (fun bar => bar.date = date ∧ bar.ticker = ticker)
        (prepared₁.ohlcvRows.zip values₁) =
      lastWhere (fun bar => bar.date = date ∧ bar.ticker = ticker)
        (prepared₂.ohlcvRows.zip values₂) := by
  have hle : ∀ bar : OhlcvBar F, decide (bar.date = date ∧ bar.ticker = ticker) = true →
      decide (bar.date ≤ cutoff) = true := by
    intro bar hbar
    exact decide_eq_true ((of_decide_eq_true hbar).1.trans_le hdate)
  have hcut : ∀ l : List (OhlcvBar F × β), lastWhere
      (fun bar => bar.date = date ∧ bar.ticker = ticker) l = lastWhere
        (fun bar => bar.date = date ∧ bar.ticker = ticker)
        (l.filter fun e => decide (e.1.date ≤ cutoff)) := fun l => (lastWhere_filter hle l).symm
  rw [hcut, hcut (prepared₂.ohlcvRows.zip values₂)]
  exact congrArg _ h

/-- Two compact engines that carry the same actions and scores up to a cutoff. -/
structure SameActions (cutoff : Date) (eng₁ eng₂ : BacktestEngine F)
    (prepared₁ prepared₂ : PreparedMarketData F) (actions₁ actions₂ : List ℤ) : Prop where
  length₁ : actions₁.length = prepared₁.ohlcvRows.length
  length₂ : actions₂.length = prepared₂.ohlcvRows.length
  actions : seriesUpTo cutoff prepared₁ actions₁ = seriesUpTo cutoff prepared₂ actions₂
  scored₁ : ∀ scores ∈ eng₁.generatedScores, scores.length = prepared₁.ohlcvRows.length
  scored₂ : ∀ scores ∈ eng₂.generatedScores, scores.length = prepared₂.ohlcvRows.length
  scores : eng₁.generatedScores.map (seriesUpTo cutoff prepared₁) =
    eng₂.generatedScores.map (seriesUpTo cutoff prepared₂)

theorem SameActions.score (h : SameActions cutoff eng₁ eng₂ (prepareMarketData m₁)
      (prepareMarketData (m₂ : MarketInputs F)) actions₁ actions₂)
    (hdate : date ≤ cutoff)
    (h₁ : (prepareMarketData m₁).rowIndexByKey date ticker = some i₁)
    (h₂ : (prepareMarketData m₂).rowIndexByKey date ticker = some i₂) :
    generatedScore eng₁ i₁ = generatedScore eng₂ i₂ := by
  have hscores := h.scores
  unfold generatedScore
  cases hs₁ : eng₁.generatedScores with
  | none =>
    cases hs₂ : eng₂.generatedScores with
    | none => rfl
    | some scores₂ =>
      rw [hs₁, hs₂] at hscores
      cases hscores
  | some scores₁ =>
    cases hs₂ : eng₂.generatedScores with
    | none =>
      rw [hs₁, hs₂] at hscores
      cases hscores
    | some scores₂ =>
      rw [hs₁, hs₂] at hscores
      have hsame := lastWhere_upTo (Option.some.inj hscores) hdate ticker
      rw [← getElem?_lastIndex _ (h.scored₁ _ hs₁), ← getElem?_lastIndex _ (h.scored₂ _ hs₂)] at hsame
      change ((prepareMarketData m₁).rowIndexByKey date ticker).bind (scores₁[·]?) =
        ((prepareMarketData m₂).rowIndexByKey date ticker).bind (scores₂[·]?) at hsame
      rw [h₁, h₂, Option.bind_some, Option.bind_some] at hsame
      simp only [hsame]

theorem SameActions.step (h : SameActions cutoff eng₁ eng₂ (prepareMarketData m₁)
      (prepareMarketData (m₂ : MarketInputs F)) actions₁ actions₂)
    {spec : StrategySpec F} (hspec₁ : eng₁.spec = spec.withActions events₁)
    (hspec₂ : eng₂.spec = spec.withActions events₂) (hdate : date ≤ cutoff) (bars : Bars F) (positions : Dict Ticker (Position F))
    (s : SignalState F) (ticker : Ticker) :
    generateCompactTickerSignal eng₁ (prepareMarketData m₁) actions₁ date bars positions s ticker =
      generateCompactTickerSignal eng₂ (prepareMarketData m₂) actions₂ date bars positions s
        ticker := by
  have hsame := lastWhere_upTo h.actions hdate ticker
  rcases lastIndex_pair h.length₁ h.length₂ hsame with ⟨hi₁, hi₂⟩ | ⟨i₁, i₂, action, hi₁, hi₂, ha₁, ha₂⟩
  · have hi₁ : (prepareMarketData m₁).rowIndexByKey date ticker = none := hi₁
    have hi₂ : (prepareMarketData m₂).rowIndexByKey date ticker = none := hi₂
    unfold generateCompactTickerSignal
    rw [hi₁, hi₂]
    rfl
  · have hi₁ : (prepareMarketData m₁).rowIndexByKey date ticker = some i₁ := hi₁
    have hi₂ : (prepareMarketData m₂).rowIndexByKey date ticker = some i₂ := hi₂
    have hscore := h.score hdate hi₁ hi₂
    have hrisk : ∀ bar acted, addRiskExit eng₁.spec date bar positions ticker acted =
        addRiskExit eng₂.spec date bar positions ticker acted := by
      intro bar acted
      rw [hspec₁, hspec₂]
      rfl
    unfold generateCompactTickerSignal
    rw [hi₁, hi₂]
    simp only [Option.elim_some, pure_bind, ha₁, ha₂, actOnGenerated, hscore, hrisk]

/-- Rules on the generated signal alone need no metric of the data. -/
theorem requiredMetrics_compact {eng : BacktestEngine F} {spec : StrategySpec F}
    (hspec : eng.spec = spec.withActions events) (hactions : eng.generatedActions = some actions)
    (hrules : ∀ name ∈ requiredMetricNames spec, name = "generated_signal") :
    eng.requiredMetrics = [] := by
  have hnames : requiredMetricNames eng.spec = requiredMetricNames spec := by
    rw [hspec]
    rfl
  unfold BacktestEngine.requiredMetrics
  rw [hactions, hnames]
  simp only [Option.isSome_some, if_true]
  rw [List.filter_eq_nil_iff]
  intro name hname
  simp [hrules name hname]

theorem selectTickers_compact {eng : BacktestEngine F} {m : MarketInputs F} {spec : StrategySpec F}
    (hspec : eng.spec = spec.withActions events)
    (hprepared : eng.preparedMarketData = some (prepareMarketData m))
    (hactions : eng.generatedActions = some actions)
    (hrules : ∀ name ∈ requiredMetricNames spec, name = "generated_signal") :
    eng.selectTickers = .ok ((barsByTicker m.ohlcvRows.rows).keys, []) := by
  apply selectTickers_all m (prepared_of_some hprepared)
  rw [requiredMetrics_compact hspec hactions hrules]
  exact fun _ _ _ _ _ hname => nomatch hname

/-- The compact path reads nothing of the days after the one it trades. -/
theorem BacktestEngine.compact_causal {m₁ m₂ : MarketInputs F} {spec : StrategySpec F}
    {config : BacktestRunConfig F}
    (heng₁ : ofPrepared (spec.withActions events₁) config (prepareMarketData m₁) (some actions₁)
      scores₁ = .ok eng₁)
    (heng₂ : ofPrepared (spec.withActions events₂) config (prepareMarketData m₂) (some actions₂)
      scores₂ = .ok eng₂)
    (hrules : ∀ name ∈ requiredMetricNames spec, name = "generated_signal")
    (hrows : rowsUpTo cutoff m₁.ohlcvRows.rows = rowsUpTo cutoff m₂.ohlcvRows.rows)
    (hevents : actionsUpTo cutoff events₁ = actionsUpTo cutoff events₂)
    (hactions : seriesUpTo cutoff (prepareMarketData m₁) actions₁ =
      seriesUpTo cutoff (prepareMarketData m₂) actions₂)
    (hscores : scores₁.map (seriesUpTo cutoff (prepareMarketData m₁)) =
      scores₂.map (seriesUpTo cutoff (prepareMarketData m₂)))
    (h₁ : eng₁.run = .ok r₁) (h₂ : eng₂.run = .ok r₂) : SameUpTo cutoff r₁ r₂ := by
  obtain ⟨hspec₁, hconfig₁, hp₁, ha₁, hs₁⟩ := ofPrepared_ok heng₁
  obtain ⟨hspec₂, hconfig₂, hp₂, ha₂, hs₂⟩ := ofPrepared_ok heng₂
  have hprep₁ := prepared_of_some hp₁
  have hprep₂ := prepared_of_some hp₂
  have hsame : SameActions cutoff eng₁ eng₂ (prepareMarketData m₁) (prepareMarketData m₂) actions₁
      actions₂ :=
    { length₁ := eng₁.actions_aligned _ hp₁ _ ha₁
      length₂ := eng₂.actions_aligned _ hp₂ _ ha₂
      actions := hactions
      scored₁ := eng₁.scores_aligned _ hp₁
      scored₂ := eng₂.scores_aligned _ hp₂
      scores := by rw [hs₁, hs₂, hscores] }
  apply AgreesUpTo.run h₁ h₂
  intro selected₁ selected₂ hsel₁ hsel₂
  cases (selectTickers_compact hspec₁ hp₁ ha₁ hrules).symm.trans hsel₁
  cases (selectTickers_compact hspec₂ hp₂ ha₂ hrules).symm.trans hsel₂
  constructor
  · rw [hconfig₁, hconfig₂]
  · exact ⟨spec, events₁, events₂, hspec₁, hspec₂, hevents⟩
  · intro date hdate
    rw [hprep₁, hprep₂]
    exact MarketInputs.dates_upTo hrows hdate
  · intro date hdate
    rw [todayBars_all m₁ hprep₁, todayBars_all m₂ hprep₂]
    exact barsByDate_upTo hrows hdate
  · intro date hdate bars hbars positions s
    unfold signalLoop
    rw [hp₁, hp₂, ha₁, ha₂]
    exact traceM_congr (fun s ticker _ =>
      hsame.step hspec₁ hspec₂ hdate bars positions s ticker) s

def generatedRule (value : F) (description : String) : Condition F :=
  ⟨"generated_signal", .eq, .number value, some description, nofun⟩

/-- The strategy that trades the generated signal and nothing else. -/
def StrategySpec.onGeneratedSignal (spec : StrategySpec F) : StrategySpec F :=
  { spec with
    entryRules := [generatedRule (PyFloat.ofInt 1) "generated BUY signal"]
    exitRules := [generatedRule (PyFloat.ofInt (-1)) "generated SELL signal"]
    entryRules_ne_nil := List.cons_ne_nil _ _ }

end

/-- The sample rows with another last session. -/
def revisedRows : EngineRows ℚ :=
  { sampleRows with
    rows := sampleRows.rows.take 3 ++ [⟨4, "005930", 90, 95, 80, 85, 1000, some 1000000⟩]
    promised := nofun }

def compactMarket (input : EngineRows ℚ) : MarketInputs ℚ where
  required := []
  talib := none
  ohlcvRows := input.ohlcvRows
  metricRows := fun _ _ => none
  inputsNormalized := false

/-- A run on the generated actions, with the engine it ran on. -/
def compactRun (spec : StrategySpec ℚ) (input : EngineRows ℚ) (actions : List ℤ) :
    Except PyError (BacktestEngine ℚ × BacktestResult ℚ) := do
  let eng ← BacktestEngine.ofPrepared spec defaultConfig (prepareMarketData (compactMarket input))
    (some actions) none
  let result ← eng.run
  pure (eng, result)

theorem revisedRows_sameUpTo : ∃ eng₁ eng₂ r₁ r₂,
    compactRun buildSampleSpec.onGeneratedSignal sampleRows [1, 0, -1, 0] = .ok (eng₁, r₁) ∧
    compactRun buildSampleSpec.onGeneratedSignal revisedRows [1, 0, -1, 1] = .ok (eng₂, r₂) ∧
    SameUpTo 3 r₁ r₂ := by
  have hrun₁ : (compactRun buildSampleSpec.onGeneratedSignal sampleRows [1, 0, -1, 0]).isOk = true := by
    decide +kernel
  have hrun₂ : (compactRun buildSampleSpec.onGeneratedSignal revisedRows [1, 0, -1, 1]).isOk = true := by
    decide +kernel
  obtain ⟨⟨eng₁, r₁⟩, hok₁⟩ := exists_ok hrun₁
  obtain ⟨⟨eng₂, r₂⟩, hok₂⟩ := exists_ok hrun₂
  refine ⟨eng₁, eng₂, r₁, r₂, hok₁, hok₂, ?_⟩
  obtain ⟨e₁, heng₁, hok₁⟩ := bind_ok_iff.mp hok₁
  obtain ⟨q₁, h₁, hok₁⟩ := bind_ok_iff.mp hok₁
  cases hok₁
  obtain ⟨e₂, heng₂, hok₂⟩ := bind_ok_iff.mp hok₂
  obtain ⟨q₂, h₂, hok₂⟩ := bind_ok_iff.mp hok₂
  cases hok₂
  have hspec : buildSampleSpec.onGeneratedSignal.withActions [] =
      buildSampleSpec.onGeneratedSignal := rfl
  rw [← hspec] at heng₁ heng₂
  exact BacktestEngine.compact_causal heng₁ heng₂ (by decide +kernel) (by decide +kernel) rfl
    (by decide +kernel) rfl h₁ h₂

end QuantAgent
