import QuantAgent.Engine.Market

namespace QuantAgent
set_option autoImplicit true

/-- `self.ohlcv_rows` after the `max_tickers` cut. -/
def cutTickers (maxTickers : Option ℤ) (rows : List (OhlcvBar F)) : List (OhlcvBar F) :=
  match maxTickers with
  | none => rows
  | some n =>
    let allowed := pyTake n (pySorted textLT (rows.map OhlcvBar.ticker).dedup)
    rows.filter fun row => decide (row.ticker ∈ allowed)

theorem cutTickers_sublist (maxTickers : Option ℤ) (rows : List (OhlcvBar F)) :
    (cutTickers maxTickers rows).Sublist rows := by
  cases maxTickers with
  | none => exact List.Sublist.refl _
  | some n => exact List.filter_sublist

/-- What the rule path trades on: rows, which `inputs_normalized` promises to be sorted. -/
structure EngineRows (F : Type) where
  rows : List (OhlcvBar F)
  metricRows : MetricTable F
  inputsNormalized : Bool
  promised : inputsNormalized = true → rows.Pairwise fun a b => a.key ≤ b.key

/-- `a.key < b.key` -/
def rowLT (a b : OhlcvBar F) : Bool :=
  decide (a.date < b.date) || (decide (a.date = b.date) && textLT a.ticker b.ticker)

theorem rowLT_eq (a b : OhlcvBar F) : rowLT a b = decide (a.key < b.key) := by
  simp [rowLT, textLT_eq, OhlcvBar.key, Prod.Lex.toLex_lt_toLex]

def EngineRows.ohlcvRows (input : EngineRows F) : OhlcvRows F where
  rows := if input.inputsNormalized then input.rows else pySorted rowLT input.rows
  sorted := by
    split
    · rename_i h
      exact input.promised h
    · exact pySorted_pairwise rowLT_eq _

/-- The engine with its constructor's checks as fields. -/
structure BacktestEngine (F : Type) [PyFloat F] where
  spec : StrategySpec F
  config : BacktestRunConfig F
  ohlcvRows : List (OhlcvBar F)
  metricRows : MetricTable F
  preparedMarketData : Option (PreparedMarketData F)
  generatedActions : Option (List ℤ)
  generatedScores : Option (List F)
  inputsNormalized : Bool
  ohlcvRows_sorted : preparedMarketData = none → ohlcvRows.Pairwise fun a b => a.key ≤ b.key
  actions_aligned : ∀ prepared ∈ preparedMarketData, ∀ actions ∈ generatedActions,
    actions.length = prepared.ohlcvRows.length
  scores_aligned : ∀ prepared ∈ preparedMarketData, ∀ scores ∈ generatedScores,
    scores.length = prepared.ohlcvRows.length

section
variable {F : Type} [PyFloat F]

namespace BacktestEngine
variable (eng : BacktestEngine F)

/-- `BacktestEngine.__init__` without prepared data. -/
def ofRows (spec : StrategySpec F) (config : BacktestRunConfig F) (input : EngineRows F)
    (generatedActions : Option (List ℤ)) (generatedScores : Option (List F)) :
    BacktestEngine F where
  spec := spec
  config := config
  ohlcvRows := cutTickers config.maxTickers input.ohlcvRows.rows
  metricRows := input.metricRows
  preparedMarketData := none
  generatedActions := generatedActions
  generatedScores := generatedScores
  inputsNormalized := input.inputsNormalized
  ohlcvRows_sorted _ := input.ohlcvRows.sorted.sublist (cutTickers_sublist _ _)
  actions_aligned _ h := by cases h
  scores_aligned _ h := by cases h

/-- `BacktestEngine.__init__` on prepared data; misaligned actions or scores are refused. -/
def ofPrepared (spec : StrategySpec F) (config : BacktestRunConfig F)
    (prepared : PreparedMarketData F) (generatedActions : Option (List ℤ))
    (generatedScores : Option (List F)) : Except PyError (BacktestEngine F) :=
  if ha : ∀ actions ∈ generatedActions, actions.length = prepared.ohlcvRows.length then
    if hs : ∀ scores ∈ generatedScores, scores.length = prepared.ohlcvRows.length then
      pure
        { spec, config, generatedActions, generatedScores
          ohlcvRows := cutTickers config.maxTickers prepared.ohlcvRows
          metricRows := fun _ _ => none
          preparedMarketData := some prepared
          inputsNormalized := false
          ohlcvRows_sorted := nofun
          actions_aligned := fun _ h actions hactions => by
            cases h
            exact ha actions hactions
          scores_aligned := fun _ h scores hscores => by
            cases h
            exact hs scores hscores }
    else
      throw (.valueError "generated_scores must align one-to-one with prepared OHLCV rows")
  else throw (.valueError "generated_actions must align one-to-one with prepared OHLCV rows")

def marketInputs (h : eng.preparedMarketData = none) : MarketInputs F where
  required := requiredMetricNames eng.spec
  talib := eng.config.talib
  ohlcvRows := ⟨eng.ohlcvRows, eng.ohlcvRows_sorted h⟩
  metricRows := eng.metricRows
  inputsNormalized := eng.inputsNormalized

def prepared : PreparedMarketData F :=
  match h : eng.preparedMarketData with
  | some prepared => prepared
  | none => prepareMarketData (eng.marketInputs h)

def requiredMetrics : List String :=
  let required := requiredMetricNames eng.spec
  if eng.generatedActions.isSome then required.filter fun name => name ≠ "generated_signal"
  else required

end BacktestEngine
end
end QuantAgent
