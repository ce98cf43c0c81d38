import QuantAgent.Engine.Compact
import QuantAgent.Engine.Delisting
import QuantAgent.Lib.PyExcept
import QuantAgent.Lib.PyText

namespace QuantAgent
set_option autoImplicit true

/-- A metric row as a caller supplies it; `none` is an empty cell. -/
structure MetricRow (F : Type) where
  date : Date
  ticker : String
  values : List (String × Option F)

def metricIdColumns : List String := ["date", "ticker", "name", "market"]

section
variable {F : Type} [PyFloat F]

def MetricRow.key (row : MetricRow F) : Date × Ticker := (row.date, zfill 6 row.ticker)

def parseFloat (fieldName : String) (value : F) : Except PyError F :=
  if PyFloat.isFinite value = false then throw (.valueError (fieldName ++ " must be finite"))
  else pure value

/-- The named values of a row that are not empty, in the order of its columns. -/
def MetricRow.cells (row : MetricRow F) : List (String × F) :=
  row.values.filterMap fun e =>
    if e.1 ∈ metricIdColumns then none else e.2.map fun value => (e.1, value)

def MetricRow.parse (row : MetricRow F) : Except PyError ((Date × Ticker) × Metrics F) := do
  let cells ← row.cells.mapM fun e => (parseFloat e.1 e.2).map fun value => (e.1, value)
  pure (row.key, fun name => (lastWhere (fun a => a = name) cells).map some)

/-- `normalize_metric_rows` of a sequence of rows. -/
def normalizeMetricRows (rows : List (MetricRow F)) : Except PyError (MetricTable F) := do
  let parsed ← rows.mapM MetricRow.parse
  pure fun date ticker => lastWhere (fun a => a = (date, ticker)) parsed

/-- The engine on rows in no particular order. -/
def unorderedEngine (spec : StrategySpec F) (config : BacktestRunConfig F)
    (rows : List (OhlcvBar F)) (metricRows : MetricTable F) : BacktestEngine F :=
  .ofRows spec config ⟨rows, metricRows, false, nofun⟩ none none

/-- A run on rows and metric rows in no particular order. -/
def runOnRows (spec : StrategySpec F) (config : BacktestRunConfig F) (rows : List (OhlcvBar F))
    (metricRows : List (MetricRow F)) : Except PyError (BacktestResult F) := do
  let table ← normalizeMetricRows metricRows
  (unorderedEngine spec config rows table).run

/-- A run of generated actions on data that `prepare_market_data` made for another spec. -/
def runOnPrepared (dataSpec spec : StrategySpec F) (dataConfig config : BacktestRunConfig F)
    (rows : List (OhlcvBar F)) (metricRows : List (MetricRow F))
    (generatedActions : Option (List ℤ)) (generatedScores : Option (List F)) :
    Except PyError (BacktestResult F) := do
  let table ← normalizeMetricRows metricRows
  let prepared := (unorderedEngine dataSpec dataConfig rows table).prepared
  let eng ← BacktestEngine.ofPrepared spec config prepared generatedActions generatedScores
  eng.run

theorem parse_key {row : MetricRow F} (h : row.parse = .ok parsed) : parsed.1 = row.key := by
  obtain ⟨cells, -, h⟩ := bind_ok_iff.mp h
  cases h
  rfl

theorem normalizeMetricRows_perm {rows rows' : List (MetricRow F)}
    (hkeys : (rows.map MetricRow.key).Nodup) (hperm : rows.Perm rows')
    (h : normalizeMetricRows rows = .ok table) : normalizeMetricRows rows' = .ok table := by
  obtain ⟨parsed, hparsed, h⟩ := bind_ok_iff.mp h
  cases h
  obtain ⟨parsed', hparsed', hsame⟩ := List.perm_comp_forall₂ hperm.symm (mapM_eq_ok.mp hparsed)
  have hfirst : rows.map MetricRow.key = parsed.map Prod.fst := by
    rw [← List.forall₂_eq_eq_eq, List.forall₂_map_left_iff, List.forall₂_map_right_iff]
    exact (mapM_eq_ok.mp hparsed).imp fun _ _ hrow => (parse_key hrow).symm
  refine bind_ok_iff.mpr ⟨parsed', mapM_eq_ok.mpr hparsed', ?_⟩
  apply congrArg Except.ok
  funext date ticker
  exact (lastWhere_perm (hfirst ▸ hkeys) hsame.symm (date, ticker)).symm

omit [PyFloat F] in
theorem ohlcvRows_congr {rows rows' : List (OhlcvBar F)} (hkeys : (rows.map OhlcvBar.key).Nodup)
    (hperm : rows.Perm rows') (table : MetricTable F) :
    (EngineRows.ohlcvRows ⟨rows, table, false, nofun⟩).rows =
      (EngineRows.ohlcvRows ⟨rows', table, false, nofun⟩).rows :=
  pySorted_congr rowLT_eq hkeys hperm

theorem unorderedEngine_congr {rows rows' : List (OhlcvBar F)}
    (hkeys : (rows.map OhlcvBar.key).Nodup) (hperm : rows.Perm rows') (spec : StrategySpec F)
    (config : BacktestRunConfig F) (table : MetricTable F) :
    unorderedEngine spec config rows table = unorderedEngine spec config rows' table := by
  have hrows := ohlcvRows_congr hkeys hperm table
  simp only [unorderedEngine, BacktestEngine.ofRows, hrows]

theorem runOnRows_perm {rows rows' : List (OhlcvBar F)} {metricRows metricRows' : List (MetricRow F)}
    (hkeys : (rows.map OhlcvBar.key).Nodup) (hperm : rows.Perm rows')
    (hmetricKeys : (metricRows.map MetricRow.key).Nodup) (hmetrics : metricRows.Perm metricRows')
    (h : runOnRows spec config rows metricRows = .ok result) :
    runOnRows spec config rows' metricRows' = .ok result := by
  obtain ⟨table, htable, hrun⟩ := bind_ok_iff.mp h
  refine bind_ok_iff.mpr ⟨table, normalizeMetricRows_perm hmetricKeys hmetrics htable, ?_⟩
  rw [← unorderedEngine_congr hkeys hperm]
  exact hrun

theorem runOnPrepared_perm {rows rows' : List (OhlcvBar F)}
    {metricRows metricRows' : List (MetricRow F)} (hkeys : (rows.map OhlcvBar.key).Nodup)
    (hperm : rows.Perm rows') (hmetricKeys : (metricRows.map MetricRow.key).Nodup)
    (hmetrics : metricRows.Perm metricRows')
    (h : runOnPrepared dataSpec spec dataConfig config rows metricRows actions scores = .ok result) :
    runOnPrepared dataSpec spec dataConfig config rows' metricRows' actions scores = .ok result := by
  obtain ⟨table, htable, hrun⟩ := bind_ok_iff.mp h
  refine bind_ok_iff.mpr ⟨table, normalizeMetricRows_perm hmetricKeys hmetrics htable, ?_⟩
  rw [← unorderedEngine_congr hkeys hperm]
  exact hrun

/-- Neither path sees the order of the rows or of the metric rows it is given. -/
theorem BacktestEngine.run_order_independent {rows rows' : List (OhlcvBar F)}
    {metricRows metricRows' : List (MetricRow F)} (hkeys : (rows.map OhlcvBar.key).Nodup)
    (hperm : rows.Perm rows') (hmetricKeys : (metricRows.map MetricRow.key).Nodup)
    (hmetrics : metricRows.Perm metricRows') (spec : StrategySpec F) (config : BacktestRunConfig F) :
    (∀ result, runOnRows spec config rows metricRows = .ok result ↔
      runOnRows spec config rows' metricRows' = .ok result) ∧
    ∀ dataSpec dataConfig actions scores result,
      runOnPrepared dataSpec spec dataConfig config rows metricRows actions scores = .ok result ↔
        runOnPrepared dataSpec spec dataConfig config rows' metricRows' actions scores =
          .ok result := by
  have hkeys' := (hperm.map OhlcvBar.key).nodup_iff.mp hkeys
  have hmetricKeys' := (hmetrics.map MetricRow.key).nodup_iff.mp hmetricKeys
  exact ⟨fun result => ⟨runOnRows_perm hkeys hperm hmetricKeys hmetrics,
      runOnRows_perm hkeys' hperm.symm hmetricKeys' hmetrics.symm⟩,
    fun _ _ _ _ result => ⟨runOnPrepared_perm hkeys hperm hmetricKeys hmetrics,
      runOnPrepared_perm hkeys' hperm.symm hmetricKeys' hmetrics.symm⟩⟩

end

def closeRow (date : Date) (ticker : Ticker) (score : ℚ) : MetricRow ℚ :=
  ⟨date, ticker, [("name", none), ("score", some score)]⟩

/-- The rows of the halted run and two metric rows, each the other way round. -/
theorem haltedRows_reversed : ∃ result,
    runOnRows buildSampleSpec defaultConfig haltedRows.rows
      [closeRow 1 "660" 1, closeRow 2 "5930" 2] = .ok result ∧
    runOnRows buildSampleSpec defaultConfig haltedRows.rows.reverse
      [closeRow 2 "5930" 2, closeRow 1 "660" 1] = .ok result := by
  have hok : (runOnRows buildSampleSpec defaultConfig haltedRows.rows
      [closeRow 1 "660" 1, closeRow 2 "5930" 2]).isOk = true := by
    decide +kernel
  obtain ⟨result, hrun⟩ := exists_ok hok
  have hkeys : (haltedRows.rows.map OhlcvBar.key).Nodup := by decide +kernel
  have hmetricKeys : (([closeRow 1 "660" 1, closeRow 2 "5930" 2]).map MetricRow.key).Nodup := by
    decide +kernel
  have hsame := BacktestEngine.run_order_independent hkeys (List.reverse_perm _).symm hmetricKeys
    (List.Perm.swap _ _ _) buildSampleSpec defaultConfig
  exact ⟨result, hrun, (hsame.1 result).mp hrun⟩

end QuantAgent
