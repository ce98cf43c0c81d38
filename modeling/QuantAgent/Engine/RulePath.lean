import QuantAgent.Engine.FastPath

namespace QuantAgent
set_option autoImplicit true

/-- A series at a date is read off the bars up to any later date. -/
theorem Causal.at_date {f : List (OhlcvBar F) → List β} (hf : Causal f) {bars : List (OhlcvBar F)}
    (hsorted : bars.Pairwise fun a b => a.date ≤ b.date) (hdate : date ≤ cutoff) :
    lastWhere (fun bar => bar.date = date) (bars.zip (f bars)) =
      lastWhere (fun bar => bar.date = date)
        ((rowsUpTo cutoff bars).zip (f (rowsUpTo cutoff bars))) := by
  have hsplit : rowsUpTo cutoff bars ++ (bars.filter fun bar => !decide (bar.date ≤ cutoff)) = bars := by
    apply filter_append_filter_not
    refine hsorted.imp fun hle hcut => ?_
    exact decide_eq_true (hle.trans (of_decide_eq_true hcut))
  have hlater : ∀ bar ∈ bars.filter fun bar => !decide (bar.date ≤ cutoff), bar.date ≠ date := by
    intro bar hbar heq
    have hcut := (List.mem_filter.mp hbar).2
    simp [heq, hdate] at hcut
  generalize (bars.filter fun bar => !decide (bar.date ≤ cutoff)) = later at hsplit hlater
  generalize rowsUpTo cutoff bars = early at hsplit
  subst hsplit
  have hseries : f (early ++ later) = f early ++ (f (early ++ later)).drop early.length := by
    rw [← hf.of_append early later, List.take_append_drop]
  rw [hseries, List.zip_append (hf.length early).symm, lastWhere_append, lastWhere_eq_none,
    Option.none_or]
  intro e he
  exact decide_eq_false (hlater e.1 (List.of_mem_zip he).1)

/-- Series of bars that agree up to a cutoff agree at each date up to it. -/
theorem Causal.congr_date {f : List (OhlcvBar F) → List β} (hf : Causal f)
    {bars₁ bars₂ : List (OhlcvBar F)} (hsorted₁ : bars₁.Pairwise fun a b => a.date ≤ b.date)
    (hsorted₂ : bars₂.Pairwise fun a b => a.date ≤ b.date)
    (h : rowsUpTo cutoff bars₁ = rowsUpTo cutoff bars₂) (hdate : date ≤ cutoff) :
    lastWhere (fun bar => bar.date = date) (bars₁.zip (f bars₁)) =
      lastWhere (fun bar => bar.date = date) (bars₂.zip (f bars₂)) := by
  rw [hf.at_date hsorted₁ hdate, h, ← hf.at_date hsorted₂ hdate]

section
variable {F : Type} [PyFloat F]

/-- The bars of a ticker are in the order of their dates. -/
theorem MarketInputs.tickerBars_sorted (m : MarketInputs F) (ticker : Ticker) :
    (m.tickerBars ticker).Pairwise fun a b => a.date ≤ b.date := by
  unfold MarketInputs.tickerBars
  rw [barsByTicker_get?]
  split
  · exact .nil
  · exact (m.ohlcvRows.sorted.sublist List.filter_sublist).imp fun h => Prod.Lex.monotone_fst _ _ h

theorem MarketInputs.tickerBars_eq (m : MarketInputs F) (ticker : Ticker) :
    m.tickerBars ticker = m.ohlcvRows.rows.filter fun bar => bar.ticker = ticker := by
  unfold MarketInputs.tickerBars
  rw [barsByTicker_get?]
  split
  · rename_i hnone
    exact hnone.symm
  · rfl

theorem MarketInputs.orderedBars_tickerBars (m : MarketInputs F) (normalized : Bool)
    (ticker : Ticker) : orderedBars normalized (m.tickerBars ticker) = m.tickerBars ticker := by
  unfold orderedBars
  split
  · rfl
  · apply pySorted_eq_self
    exact (m.tickerBars_sorted ticker).imp fun hle => decide_eq_false (not_lt.mpr hle)

theorem MarketInputs.tickerBars_upTo {m₁ m₂ : MarketInputs F}
    (h : rowsUpTo cutoff m₁.ohlcvRows.rows = rowsUpTo cutoff m₂.ohlcvRows.rows) (ticker : Ticker) :
    rowsUpTo cutoff (m₁.tickerBars ticker) = rowsUpTo cutoff (m₂.tickerBars ticker) := by
  have hcomm : ∀ m : MarketInputs F, rowsUpTo cutoff (m.tickerBars ticker) =
      (rowsUpTo cutoff m.ohlcvRows.rows).filter fun bar => bar.ticker = ticker := by
    intro m
    rw [m.tickerBars_eq, rowsUpTo, rowsUpTo, List.filter_comm]
  rw [hcomm, hcomm, h]

theorem derivedSeries_causal (name : String) :
    (∀ bars : List (OhlcvBar F), derivedSeries bars name = none) ∨
      ∃ f : List (OhlcvBar F) → List (Metric F), Causal f ∧
        ∀ bars, derivedSeries bars name = some (f bars) := by
  unfold derivedSeries
  split
  · exact .inr ⟨_, .prefixMap _, fun _ => rfl⟩
  · exact .inr ⟨_, .prefixMap _, fun _ => rfl⟩
  · exact .inr ⟨_, .prefixMap _, fun _ => rfl⟩
  · exact .inr ⟨_, (Causal.loopMap breakoutStep (0, none)).comp (Causal.id.zip (.prefixMap _)),
      fun _ => rfl⟩
  · exact .inl fun _ => rfl

theorem computeDerivedMetricsForBars_upTo {bars₁ bars₂ : List (OhlcvBar F)}
    (hsorted₁ : bars₁.Pairwise fun a b => a.date ≤ b.date)
    (hsorted₂ : bars₂.Pairwise fun a b => a.date ≤ b.date)
    (h : rowsUpTo cutoff bars₁ = rowsUpTo cutoff bars₂) (required : List String)
    (hdate : date ≤ cutoff) :
    computeDerivedMetricsForBars bars₁ required date =
      computeDerivedMetricsForBars bars₂ required date := by
  have hsome : ∀ name, (derivedSeries bars₁ name).isSome = (derivedSeries bars₂ name).isSome := by
    intro name
    rcases derivedSeries_causal (F := F) name with hnone | ⟨f, -, hf⟩
    · rw [hnone, hnone]
    · rw [hf, hf]
      rfl
  have hany : bars₁.any (fun bar => bar.date = date) = bars₂.any fun bar => bar.date = date := by
    have hfound : ∀ bars : List (OhlcvBar F), bars.any (fun bar => bar.date = date) =
        !(bars.filter fun bar => bar.date = date).isEmpty := by
      intro bars
      rw [Bool.eq_iff_iff]
      simp
    rw [hfound, hfound, rowsUpTo_on h hdate]
  have hvalue : ∀ name, ((derivedSeries bars₁ name).bind fun values =>
        lastWhere (fun bar => bar.date = date) (bars₁.zip values)) =
      (derivedSeries bars₂ name).bind fun values =>
        lastWhere (fun bar => bar.date = date) (bars₂.zip values) := by
    intro name
    rcases derivedSeries_causal (F := F) name with hnone | ⟨f, hcausal, hf⟩
    · rw [hnone, hnone]
      rfl
    · rw [hf, hf]
      exact hcausal.congr_date hsorted₁ hsorted₂ h hdate
  unfold computeDerivedMetricsForBars
  simp only [hsome, hany, hvalue]

/-- An indicator library whose values at a date read no later bar. -/
def Talib.Causal (library : Talib F) : Prop :=
  ∀ required (bars₁ bars₂ : List (OhlcvBar F)) (cutoff : Date),
    rowsUpTo cutoff bars₁ = rowsUpTo cutoff bars₂ →
    ∀ date ≤ cutoff, library.compute required bars₁ date = library.compute required bars₂ date

namespace MarketInputs

/-- Two markets that agree on everything dated up to a cutoff. -/
structure SameUpTo (cutoff : Date) (m₁ m₂ : MarketInputs F) : Prop where
  required : m₁.required = m₂.required
  talib : m₁.talib = m₂.talib
  causal : ∀ library ∈ m₁.talib, library.Causal
  rows : rowsUpTo cutoff m₁.ohlcvRows.rows = rowsUpTo cutoff m₂.ohlcvRows.rows
  metricRows : ∀ date ≤ cutoff, ∀ ticker, m₁.metricRows date ticker = m₂.metricRows date ticker

theorem SameUpTo.metricsByKey {m₁ m₂ : MarketInputs F} (h : SameUpTo cutoff m₁ m₂)
    (hdate : date ≤ cutoff) (ticker : Ticker) :
    m₁.metricsByKey date ticker = m₂.metricsByKey date ticker := by
  have hbars := tickerBars_upTo h.rows ticker
  have htalib : (m₁.talib.bind fun library => library.compute m₂.required (m₁.tickerBars ticker) date) =
      m₂.talib.bind fun library => library.compute m₂.required (m₂.tickerBars ticker) date := by
    rw [← h.talib]
    apply Option.bind_congr
    intro library hlibrary
    exact h.causal library hlibrary _ _ _ cutoff hbars date hdate
  have hderived := computeDerivedMetricsForBars_upTo (m₁.tickerBars_sorted ticker)
    (m₂.tickerBars_sorted ticker) hbars m₂.required hdate
  unfold MarketInputs.metricsByKey
  simp only [orderedBars_tickerBars, htalib, hderived, h.required, h.metricRows date hdate ticker,
    barsByDate_upTo h.rows hdate]

/-- The loop that remembers the metrics of the bar before. -/
def previousStep (metrics : Date → Option (Metrics F)) (previous : Option (Metrics F))
    (bar : OhlcvBar F) : Option (Metrics F) × Option (Metrics F) := (metrics bar.date, previous)

omit [PyFloat F] in
theorem zip_previous (metrics : Date → Option (Metrics F)) (bars : List (OhlcvBar F))
    (previous : Option (Metrics F)) :
    bars.zip (previous :: bars.map fun bar => metrics bar.date) =
      bars.zip (loopMap (previousStep metrics) previous bars) := by
  induction bars generalizing previous with
  | nil => rfl
  | cons bar bars ih =>
    rw [List.map_cons, List.zip_cons_cons, ih]
    rfl

theorem SameUpTo.previousMetricsByKey {m₁ m₂ : MarketInputs F} (h : SameUpTo cutoff m₁ m₂)
    (hdate : date ≤ cutoff) (ticker : Ticker) :
    m₁.previousMetricsByKey date ticker = m₂.previousMetricsByKey date ticker := by
  have hearly : ∀ m : MarketInputs F, lastWhere (fun bar => bar.date = date)
      ((m.tickerBars ticker).zip
        (none :: (m.tickerBars ticker).map fun bar => m.metricsByKey bar.date ticker)) =
      lastWhere (fun bar => bar.date = date) ((rowsUpTo cutoff (m.tickerBars ticker)).zip
        (none :: (rowsUpTo cutoff (m.tickerBars ticker)).map
          fun bar => m.metricsByKey bar.date ticker)) := by
    intro m
    have hcausal := (Causal.loopMap (previousStep fun date => m.metricsByKey date ticker)
      none).at_date (m.tickerBars_sorted ticker) hdate
    rwa [← zip_previous, ← zip_previous] at hcausal
  have hmetrics : ((rowsUpTo cutoff (m₁.tickerBars ticker)).map
        fun bar => m₁.metricsByKey bar.date ticker) =
      (rowsUpTo cutoff (m₂.tickerBars ticker)).map fun bar => m₂.metricsByKey bar.date ticker := by
    rw [tickerBars_upTo h.rows]
    apply List.map_congr_left
    intro bar hbar
    exact h.metricsByKey (of_decide_eq_true (List.mem_filter.mp hbar).2) ticker
  unfold MarketInputs.previousMetricsByKey
  simp only [orderedBars_tickerBars]
  rw [hearly, hearly, hmetrics, tickerBars_upTo h.rows]

end MarketInputs

omit [PyFloat F] in
theorem firstMissing_ticker {metricsByKey : MetricTable F} {bars : List (OhlcvBar F)}
    (h : BacktestEngine.firstMissing metricsByKey required ticker bars = .ok (some excluded)) :
    excluded.ticker = ticker := by
  induction bars with
  | nil => cases h
  | cons bar bars ih =>
    obtain ⟨metrics, -, h⟩ := bind_ok_iff.mp h
    dsimp only at h
    split at h
    · exact ih h
    · cases h
      rfl

/-- The selected tickers are those that no exclusion names. -/
theorem selectTickers_partition {eng : BacktestEngine F} (h : eng.selectTickers = .ok selected)
    (ticker : Ticker) : ticker ∈ selected.1 ↔
      ticker ∈ eng.prepared.barsByTicker.keys ∧
        ticker ∉ selected.2.map ExcludedTicker.ticker := by
  have hrun := traceM_run (I := fun done log included =>
    (∀ ticker, ticker ∈ included ↔
      ticker ∈ done.map Prod.fst ∧ ticker ∉ log.map ExcludedTicker.ticker) ∧
    ∀ ticker ∈ log.map ExcludedTicker.ticker, ticker ∈ done.map Prod.fst) (d := []) (l := [])
    h ⟨by simp, nofun⟩ ?_
  · exact hrun.1 ticker
  · rintro done rest log included ⟨name, bars⟩ included' out hsplit ⟨hincluded, hexcluded⟩ hstep
    have hfresh : name ∉ done.map Prod.fst := by
      have hnodup := eng.prepared.barsByTicker.nodup
      rw [← List.nil_append eng.prepared.barsByTicker.entries, hsplit, List.map_append] at hnodup
      exact fun hmem => (List.nodup_append.mp hnodup).2.2 name hmem name (List.mem_cons_self ..) rfl
    obtain ⟨missing, hmissing, hstep⟩ := bind_ok_iff.mp hstep
    cases missing with
    | none =>
      cases hstep
      simp only [List.append_nil, List.map_append, List.map_cons, List.map_nil, List.mem_append,
        List.mem_singleton]
      refine ⟨fun ticker => ?_, fun ticker hmem => .inl (hexcluded ticker hmem)⟩
      rw [hincluded]
      constructor
      · rintro (⟨hdone, hkept⟩ | rfl)
        · exact ⟨.inl hdone, hkept⟩
        · exact ⟨.inr rfl, fun hmem => hfresh (hexcluded _ hmem)⟩
      · rintro ⟨hdone | rfl, hkept⟩
        · exact .inl ⟨hdone, hkept⟩
        · exact .inr rfl
    | some excluded =>
      cases hstep
      have hname := firstMissing_ticker hmissing
      simp only [List.map_append, List.map_cons, List.map_nil, List.mem_append, List.mem_singleton,
        hname]
      refine ⟨fun ticker => ?_, ?_⟩
      · rw [hincluded]
        constructor
        · rintro ⟨hdone, hkept⟩
          refine ⟨.inl hdone, not_or.mpr ⟨hkept, ?_⟩⟩
          rintro rfl
          exact hfresh hdone
        · rintro ⟨hdone, hkept⟩
          exact ⟨hdone.resolve_right (not_or.mp hkept).2, (not_or.mp hkept).1⟩
      · rintro ticker (hmem | rfl)
        · exact .inl (hexcluded ticker hmem)
        · exact .inr rfl

/-- What the rule path is given, up to a cutoff. -/
structure EngineRows.SameUpTo (cutoff : Date) (input₁ input₂ : EngineRows F) : Prop where
  rows : rowsUpTo cutoff input₁.ohlcvRows.rows = rowsUpTo cutoff input₂.ohlcvRows.rows
  metricRows : ∀ date ≤ cutoff, ∀ ticker,
    input₁.metricRows date ticker = input₂.metricRows date ticker
  tickers : tickersOf input₁.ohlcvRows.rows = tickersOf input₂.ohlcvRows.rows

omit [PyFloat F] in
theorem mem_cutTickers_ticker {maxTickers : Option ℤ} {rows : List (OhlcvBar F)} :
    (∃ bar ∈ cutTickers maxTickers rows, bar.ticker = ticker) ↔
      ticker ∈ tickersOf rows ∧ ticker ∈ keptTickers maxTickers (tickersOf rows) := by
  rw [cutTickers_eq]
  constructor
  · rintro ⟨bar, hbar, rfl⟩
    obtain ⟨hrow, hkept⟩ := List.mem_filter.mp hbar
    exact ⟨mem_tickersOf.mpr ⟨bar, hrow, rfl⟩, of_decide_eq_true hkept⟩
  · rintro ⟨hticker, hkept⟩
    obtain ⟨bar, hbar, rfl⟩ := mem_tickersOf.mp hticker
    exact ⟨bar, List.mem_filter.mpr ⟨hbar, decide_eq_true hkept⟩, rfl⟩

omit [PyFloat F] in
theorem EngineRows.SameUpTo.cut {input₁ input₂ : EngineRows F} (h : input₁.SameUpTo cutoff input₂)
    (maxTickers : Option ℤ) :
    rowsUpTo cutoff (cutTickers maxTickers input₁.ohlcvRows.rows) =
      rowsUpTo cutoff (cutTickers maxTickers input₂.ohlcvRows.rows) := by
  have hcomm : ∀ input : EngineRows F, rowsUpTo cutoff (cutTickers maxTickers input.ohlcvRows.rows) =
      (rowsUpTo cutoff input.ohlcvRows.rows).filter fun bar =>
        decide (bar.ticker ∈ keptTickers maxTickers (tickersOf input.ohlcvRows.rows)) := by
    intro input
    rw [cutTickers_eq, rowsUpTo, rowsUpTo, List.filter_comm]
  rw [hcomm, hcomm, h.rows, h.tickers]

/-- The engine of the rule path on an input. -/
def BacktestEngine.ofInput (spec : StrategySpec F) (config : BacktestRunConfig F)
    (input : EngineRows F) : BacktestEngine F := ofRows spec config input none none

theorem ofInput_sameUpTo (spec : StrategySpec F) {config : BacktestRunConfig F}
    {input₁ input₂ : EngineRows F} (htalib : ∀ library ∈ config.talib, library.Causal)
    (h : input₁.SameUpTo cutoff input₂) (events₁ events₂ : List (CorporateActionEvent F)) :
    MarketInputs.SameUpTo cutoff
      ((BacktestEngine.ofInput (spec.withActions events₁) config input₁).marketInputs rfl)
      ((BacktestEngine.ofInput (spec.withActions events₂) config input₂).marketInputs rfl) where
  required := rfl
  talib := rfl
  causal := htalib
  rows := h.cut config.maxTickers
  metricRows := h.metricRows

theorem ofInput_keys {spec : StrategySpec F} {config : BacktestRunConfig F} {input : EngineRows F} :
    ticker ∈ (BacktestEngine.ofInput spec config input).prepared.barsByTicker.keys ↔
      ticker ∈ tickersOf input.ohlcvRows.rows ∧
        ticker ∈ keptTickers config.maxTickers (tickersOf input.ohlcvRows.rows) := by
  rw [← mem_cutTickers_ticker]
  change ticker ∈ (Dict.mapVal _ _).keys ↔ _
  rw [Dict.keys_mapVal]
  exact Dict.mem_group

/-- Two rule engines that select the same tickers see the same of every day up to the cutoff. -/
theorem ofInput_agrees {spec : StrategySpec F} {config : BacktestRunConfig F}
    {input₁ input₂ : EngineRows F} (htalib : ∀ library ∈ config.talib, library.Causal)
    (hinput : input₁.SameUpTo cutoff input₂)
    (hevents : actionsUpTo cutoff events₁ = actionsUpTo cutoff events₂)
    (hincluded : ∀ ticker : Ticker, ticker ∈ included₁ ↔ ticker ∈ included₂) :
    AgreesUpTo cutoff (BacktestEngine.ofInput (spec.withActions events₁) config input₁)
      (BacktestEngine.ofInput (spec.withActions events₂) config input₂) included₁ included₂ := by
  have hsame := ofInput_sameUpTo spec htalib hinput events₁ events₂
  constructor
  · rfl
  · exact ⟨spec, events₁, events₂, rfl, rfl, hevents⟩
  · exact fun date hdate => MarketInputs.dates_upTo hsame.rows hdate
  · intro date hdate
    have hbars : ∀ events input, (BacktestEngine.ofInput (spec.withActions events) config
        input).prepared.barsByDate.get? date =
          (barsByDate (cutTickers config.maxTickers input.ohlcvRows.rows)).get? date :=
      fun events input => MarketInputs.prepared_barsByDate _ date
    unfold BacktestEngine.todayBars
    rw [hbars, hbars, barsByDate_upTo (hinput.cut config.maxTickers) hdate]
    simp only [hincluded]
  · intro date hdate bars hbars positions s
    have hmetrics : ∀ ticker, (BacktestEngine.ofInput (spec.withActions events₁) config
        input₁).prepared.metricsByKey date ticker = (BacktestEngine.ofInput
          (spec.withActions events₂) config input₂).prepared.metricsByKey date ticker :=
      hsame.metricsByKey hdate
    have hprevious : ∀ ticker, (BacktestEngine.ofInput (spec.withActions events₁) config
        input₁).prepared.previousMetricsByKey date ticker = (BacktestEngine.ofInput
          (spec.withActions events₂) config input₂).prepared.previousMetricsByKey date ticker :=
      hsame.previousMetricsByKey hdate
    refine traceM_congr (fun s ticker _ => ?_) s
    unfold generateTickerSignal
    rw [hmetrics, hprevious]
    rfl

/-- The rule path shows the same up to a cutoff when it excludes the same tickers. -/
theorem BacktestEngine.rule_causal {spec : StrategySpec F} {config : BacktestRunConfig F}
    {input₁ input₂ : EngineRows F} (htalib : ∀ library ∈ config.talib, library.Causal)
    (hinput : input₁.SameUpTo cutoff input₂)
    (hevents : actionsUpTo cutoff events₁ = actionsUpTo cutoff events₂)
    (h₁ : (ofInput (spec.withActions events₁) config input₁).run = .ok r₁)
    (h₂ : (ofInput (spec.withActions events₂) config input₂).run = .ok r₂)
    (hexcluded : ∀ ticker, ticker ∈ r₁.summary.excludedTickers.map ExcludedTicker.ticker ↔
      ticker ∈ r₂.summary.excludedTickers.map ExcludedTicker.ticker) :
    QuantAgent.SameUpTo cutoff r₁ r₂ := by
  obtain ⟨⟨excluded₁, s₁, log₁⟩, htrace₁, hr₁⟩ := bind_ok_iff.mp h₁
  obtain ⟨⟨excluded₂, s₂, log₂⟩, htrace₂, hr₂⟩ := bind_ok_iff.mp h₂
  cases hr₁
  cases hr₂
  obtain ⟨_, hlooped₁, -⟩ := trace_looped htrace₁
  obtain ⟨_, hlooped₂, -⟩ := trace_looped htrace₂
  apply AgreesUpTo.run h₁ h₂
  intro selected₁ selected₂ hsel₁ hsel₂
  cases hlooped₁.selects.symm.trans hsel₁
  cases hlooped₂.selects.symm.trans hsel₂
  apply ofInput_agrees htalib hinput hevents
  intro ticker
  rw [selectTickers_partition hsel₁, selectTickers_partition hsel₂, ofInput_keys, ofInput_keys,
    hinput.tickers]
  exact and_congr_right fun _ => not_congr (hexcluded ticker)

end

theorem revisedRows_rule_causal : ∃ r₁ r₂,
    (BacktestEngine.ofInput buildSampleSpec defaultConfig sampleRows).run = .ok r₁ ∧
    (BacktestEngine.ofInput buildSampleSpec defaultConfig revisedRows).run = .ok r₂ ∧
    SameUpTo 3 r₁ r₂ := by
  have hrun₁ : (BacktestEngine.ofInput buildSampleSpec defaultConfig sampleRows).run.map
      (fun r => r.summary.excludedTickers.map ExcludedTicker.ticker) = .ok [] := by
    decide +kernel
  have hrun₂ : (BacktestEngine.ofInput buildSampleSpec defaultConfig revisedRows).run.map
      (fun r => r.summary.excludedTickers.map ExcludedTicker.ticker) = .ok [] := by
    decide +kernel
  obtain ⟨r₁, h₁, hexcluded₁⟩ := map_ok_iff.mp hrun₁
  obtain ⟨r₂, h₂, hexcluded₂⟩ := map_ok_iff.mp hrun₂
  have hinput : sampleRows.SameUpTo 3 revisedRows :=
    { rows := by decide +kernel
      metricRows := fun _ _ _ => rfl
      tickers := by decide +kernel }
  have htalib : ∀ library ∈ defaultConfig.talib, library.Causal := nofun
  have hspec : buildSampleSpec.withActions [] = buildSampleSpec := rfl
  refine ⟨r₁, r₂, h₁, h₂, ?_⟩
  exact BacktestEngine.rule_causal htalib hinput rfl (hspec.symm ▸ h₁) (hspec.symm ▸ h₂)
    fun ticker => by rw [hexcluded₁, hexcluded₂]

/-- Buys on an oversold RSI. -/
def rsiSpec : StrategySpec ℚ :=
  { buildSampleSpec with
    entryRules := [⟨"rsi_14", .lt, .number 30, none, nofun⟩]
    exitRules := []
    entryRules_ne_nil := List.cons_ne_nil _ _ }

/-- Three days of one name whose RSI is known up to a date. -/
def rsiRows (last : Date) : EngineRows ℚ where
  rows :=
    [⟨1, "005930", 100, 101, 99, 100, 1000, some 1000000⟩,
      ⟨2, "005930", 100, 101, 99, 100, 1000, some 1000000⟩,
      ⟨3, "005930", 100, 101, 99, 100, 1000, some 1000000⟩]
  metricRows date _ :=
    if date ≤ last then some fun name => if name = "rsi_14" then some (some 20) else none else none
  inputsNormalized := false
  promised := nofun

/-- Whether day 2 fills a buy depends on the RSI of day 3. -/
theorem rsiRows_lookahead : (rsiRows 3).SameUpTo 2 (rsiRows 2) ∧ ∃ r₁ r₂,
    (BacktestEngine.ofInput rsiSpec defaultConfig (rsiRows 3)).run = .ok r₁ ∧
    (BacktestEngine.ofInput rsiSpec defaultConfig (rsiRows 2)).run = .ok r₂ ∧
    r₁.view.fills.map OrderAuditRecord.date = [2] ∧ r₂.view.fills.map OrderAuditRecord.date = [] ∧
    r₂.signals = [] := by
  constructor
  · refine ⟨rfl, fun date hdate ticker => ?_, rfl⟩
    simp [rsiRows, hdate, hdate.trans (Nat.le_succ 2)]
  · have hrun₁ : (BacktestEngine.ofInput rsiSpec defaultConfig (rsiRows 3)).run.map
        (fun r => r.view.fills.map OrderAuditRecord.date) = .ok [2] := by
      decide +kernel
    have hrun₂ : (BacktestEngine.ofInput rsiSpec defaultConfig (rsiRows 2)).run.map
        (fun r => (r.view.fills.map OrderAuditRecord.date, r.signals.length)) = .ok ([], 0) := by
      decide +kernel
    obtain ⟨r₁, h₁, hfills₁⟩ := map_ok_iff.mp hrun₁
    obtain ⟨r₂, h₂, hview₂⟩ := map_ok_iff.mp hrun₂
    obtain ⟨hfills₂, hsignals₂⟩ := Prod.mk.inj hview₂
    exact ⟨r₁, r₂, h₁, h₂, hfills₁, hfills₂, List.eq_nil_of_length_eq_zero hsignals₂⟩

end QuantAgent
