import QuantAgent.Lib.PyDate
import QuantAgent.Features.Store

namespace QuantAgent.DataSource
open QuantAgent.Features
set_option autoImplicit true

section Values
variable {F : Type} [NumPy F]

/-- `_optional_float_value` -/
def optionalFloatValue : Cell F → Option F
  | .bool _ => none
  | value => value.float.toOption

/-- `value and value > 0` -/
def positive : Option F → Option F := Option.filter fun x => x != 0 && decide (0 < x)

/-- One row of the filings query, in the order of `symbol, filed`. -/
structure FilingRecord (F : Type) where
  symbol : Cell F
  filed : PyDate
  equity : Cell F
  liabilities : Cell F
  profit_loss : Cell F
  revenue : Cell F
  operating_income : Cell F
  annual_eps : Cell F

/-- `str(value or "").zfill(6)` -/
def tickerKey (value : Cell F) : String := zfill 6 (value.or (.text "")).str

/-- `if value is not None: d[key] = value` -/
def setIfSome (d : Dict String α) (key : String) : Option α → Dict String α
  | some value => d.insert key value
  | none => d

/-- The figures a filing gives by itself. -/
def FilingRecord.ratios (row : FilingRecord F) : Dict String F :=
  let profit := optionalFloatValue row.profit_loss
  let liabilities := optionalFloatValue row.liabilities
  let operating := optionalFloatValue row.operating_income
  let revenue := optionalFloatValue row.revenue
  let byEquity := (positive (optionalFloatValue row.equity)).elim Dict.empty fun equity =>
    setIfSome (setIfSome Dict.empty "roe" (profit.map (· / equity))) "debt_to_equity"
      (liabilities.map (· / equity))
  let byRevenue := (positive revenue).elim byEquity fun revenue =>
    setIfSome byEquity "operating_margin" (operating.map (· / revenue))
  setIfSome (setIfSome byRevenue "operating_income" operating) "revenue" revenue

end Values

/-- One entry of a ticker's timeline. -/
structure Filing (F : Type) where
  filed : PyDate
  ratios : Dict String F
  /-- Popped by the forward fill. -/
  annual_eps : Option F

def streakMetrics : List String := ["revenue", "operating_income", "operating_margin", "roe"]

def upStreak (metric : String) : String := metric ++ "_up_streak"

section Timeline
variable {F : Type} [NumPy F]

def FilingRecord.filing (row : FilingRecord F) : Filing F :=
  ⟨row.filed, row.ratios, optionalFloatValue row.annual_eps⟩

/-- The first pass: the last annual EPS seen is carried forward. -/
def carryEps (last : Option F) (filing : Filing F) : Option F × Filing F :=
  let last := filing.annual_eps.or last
  (last, ⟨filing.filed, setIfSome filing.ratios "eps" last, none⟩)

/-- What the second pass carries: the last value of each metric, and its count of rises. -/
structure StreakState (F : Type) where
  previous : Dict String F
  streaks : Dict String ℕ

/-- One metric of one filing. -/
def countMetric (metric : String) (s : StreakState F × Dict String F) : StreakState F × Dict String F :=
  match s.2.get? metric with
  | none => s
  | some value =>
    let streaks := match s.1.previous.get? metric with
      | some prior => s.1.streaks.insert metric
          (if prior < value then (s.1.streaks.get? metric).getD 0 + 1 else 0)
      | none => s.1.streaks
    (⟨s.1.previous.insert metric value, streaks⟩,
      s.2.insert (upStreak metric) (lit ((streaks.get? metric).getD 0)))

/-- The second pass: consecutive rises of each metric. -/
def countStreaks (s : StreakState F) (filing : Filing F) : StreakState F × Filing F :=
  let counted := streakMetrics.foldl (fun s metric => countMetric metric s) (s, filing.ratios)
  (counted.1, { filing with ratios := counted.2 })

def noStreaks : StreakState F := ⟨.empty, .empty⟩

/-- Both passes over the filings of one ticker. -/
def timeline (filings : List (Filing F)) : List (Filing F) :=
  loopMap countStreaks noStreaks (loopMap carryEps none filings)

/-- `_fetch_financial_timeline`, from the rows the query returns. -/
def fetchFinancialTimeline (rows : List (FilingRecord F)) : Dict String (List (Filing F)) :=
  (Dict.group (fun row => tickerKey row.symbol) [] (fun filings row => filings ++ [row.filing])
    rows).mapVal fun _ filings => timeline filings

end Timeline

section Attach
variable {F : Type} [NumPy F]

/-- `row.setdefault(key, value)` -/
def setDefault (row : Row F) (key : String) (value : F) : Row F :=
  if key ∈ row then row else row.insert key (.number value)

/-- The close PER is priced with. -/
def perClose (row : Row F) : Option F :=
  (optionalFloatValue (row.value "raw_close")).or (optionalFloatValue (row.value "close"))

/-- The figures of the current filing put on a bar. -/
def attachBar (current : Dict String F) (row : Row F) : Row F :=
  let carried := current.entries.foldl (fun row entry => setDefault row entry.1 entry.2) row
  match positive (current.get? "eps"), perClose carried with
  | some eps, some close => setDefault carried "per" (close / eps)
  | _, _ => carried

/-- `while pointer < len(filings) and filings[pointer]["filed"] < row_date`, on the filings from the
pointer on. -/
def advance (day : PyDate) : List (Filing F) → Dict String F → List (Filing F) × Dict String F
  | filing :: rest, current =>
    if filing.filed < day then advance day rest filing.ratios else (filing :: rest, current)
  | [], current => ([], current)

/-- `_date_value(row.get("date"))` -/
def rowDate (row : Row F) : Except PyError PyDate := PyDate.fromIsoFormat (row.value "date").str

/-- The walk over one ticker's bars, given by their places in the price rows. -/
def walk : List (Filing F) → Dict String F → List ℕ → List (Row F) → Except PyError (List (Row F))
  | _, _, [], priceRows => .ok priceRows
  | pending, current, i :: places, priceRows =>
    match priceRows[i]? with
    | none => .error .indexError
    | some row => do
      let day ← rowDate row
      let reached := advance day pending current
      walk reached.1 reached.2 places (priceRows.set i (attachBar reached.2 row))

/-- The places of each ticker's rows. -/
def rowsByTicker (priceRows : List (Row F)) : Dict String (List ℕ) :=
  Dict.group (fun entry => tickerKey (entry.2.value "ticker")) [] (fun places entry => places ++ [entry.1])
    ((List.range priceRows.length).zip priceRows)

/-- `rows.sort(key=lambda item: str(item.get("date") or ""))` -/
def sortByDate (priceRows : List (Row F)) (places : List ℕ) : List ℕ :=
  pySorted (fun i j => decide (((priceRows[i]?).map Row.date).getD "" <
    ((priceRows[j]?).map Row.date).getD "")) places

/-- One ticker's bars. -/
def attachTicker (financials : Dict String (List (Filing F))) (priceRows : List (Row F))
    (entry : String × List ℕ) : Except PyError (List (Row F)) :=
  match (financials.get? entry.1).getD [] with
  | [] => .ok priceRows
  | filings => walk filings .empty (sortByDate priceRows entry.2) priceRows

/-- `_attach_pointintime_financials`: the price rows are changed in place. -/
def attachPointInTimeFinancials (priceRows : List (Row F)) (financials : Dict String (List (Filing F))) :
    Except PyError (List (Row F)) :=
  (rowsByTicker priceRows).entries.foldlM (attachTicker financials) priceRows

end Attach

end QuantAgent.DataSource
