import QuantAgent.Lib.Dict
import QuantAgent.Lib.PyList
import QuantAgent.Lib.PyText
import QuantAgent.Lib.SortedSet
import Mathlib.Algebra.Order.Field.Basic
import Mathlib.Data.String.Basic

namespace QuantAgent.Risk
set_option autoImplicit true

/-- The entries of a price row that are read. -/
structure PriceRow (K : Type) where
  ticker : Option String
  date : Option String
  close : Option K

structure Candidate where
  ticker : Option String
  sector : Option String

structure PortfolioRisk (K : Type) where
  nameCount : ℕ
  sectorCount : ℕ
  effectiveSectors : K
  topSectorWeight : K
  averageCorrelation : Option K
  diversificationScore : K

/-- `str(value or default)` -/
def textOr (default : String) (value : Option String) : String :=
  match value with
  | none => default
  | some s => if s = "" then default else s

def rowTicker (row : PriceRow K) : String := zfill 6 (textOr "" row.ticker)

section
variable {K : Type} [Field K] [LinearOrder K]

/-- `zip(points, points[1:])`, each return under the later date. -/
def dailyReturns (points : List (String × K)) : Dict String K :=
  (points.zip points.tail).foldl (fun daily (previous, current) =>
    if previous.2 ≠ 0 then daily.insert current.1 (current.2 / previous.2 - 1) else daily) Dict.empty

/-- `(a[0], a[1]) < (b[0], b[1])` -/
def pointBefore (a b : String × K) : Bool :=
  if a.1 = b.1 then decide (a.2 < b.2) else decide (a.1 < b.1)

/-- The point of a row, if its ticker is asked for and it has a close and a date. -/
def pricePoint (tickers : List String) (row : PriceRow K) : Option (String × String × K) :=
  if rowTicker row ∈ tickers then
    match row.close, row.date with
    | some close, some date => some (rowTicker row, date, close)
    | _, _ => none
  else none

def priceSeries (tickers : List String) (priceRows : List (PriceRow K)) :
    Dict String (List (String × K)) :=
  Dict.group Prod.fst [] (fun points entry => points ++ [entry.2]) (priceRows.filterMap (pricePoint tickers))

/-- The returns of the tickers that have two of them. -/
def tickerReturns (tickers : List String) (priceRows : List (PriceRow K)) : List (String × Dict String K) :=
  (priceSeries tickers priceRows).entries.filterMap fun (ticker, points) =>
    let daily := dailyReturns (pySorted pointBefore points)
    if 2 ≤ daily.size then some (ticker, daily) else none

def dot (a b : List K) : K := (List.zipWith (· * ·) a b).sum

/-- `a @ b.T` -/
def matMulTransposed (a b : List (List K)) : List (List K) := a.map fun row => b.map (dot row)

def entry (m : List (List K)) (i j : ℕ) : K := (m.getD i []).getD j 0

/-- `zip(*np.triu_indices(n, k=1))` -/
def upperPairs (n : ℕ) : List (ℕ × ℕ) :=
  (List.range n).flatMap fun i => (List.range' (i + 1) (n - (i + 1))).map fun j => (i, j)

/-- The sums over the dates two series share. -/
structure PairSums (K : Type) where
  counts : List (List K)
  sums : List (List K)
  squares : List (List K)
  products : List (List K)

def pairSums (values : List (List (Option K))) : PairSums K :=
  let observed := values.map fun row => row.map fun v => if v.isSome then (1 : K) else 0
  let filled := values.map fun row => row.map fun v => v.getD 0
  { counts := matMulTransposed observed observed
    sums := matMulTransposed filled observed
    squares := matMulTransposed (filled.map fun row => row.map fun v => v * v) observed
    products := matMulTransposed filled filled }

def covarianceOf (m : PairSums K) (pair : ℕ × ℕ) : K :=
  entry m.products pair.1 pair.2 -
    entry m.sums pair.1 pair.2 * entry m.sums pair.2 pair.1 / entry m.counts pair.1 pair.2

def varianceXOf (m : PairSums K) (pair : ℕ × ℕ) : K :=
  entry m.squares pair.1 pair.2 -
    entry m.sums pair.1 pair.2 * entry m.sums pair.1 pair.2 / entry m.counts pair.1 pair.2

def varianceYOf (m : PairSums K) (pair : ℕ × ℕ) : K :=
  entry m.squares pair.2 pair.1 -
    entry m.sums pair.2 pair.1 * entry m.sums pair.2 pair.1 / entry m.counts pair.1 pair.2

variable (sqrt : K → K)

/-- The mean over the pairs that can be compared. -/
def meanCorrelation (m : PairSums K) (pairs : List (ℕ × ℕ)) : Option K :=
  let valid := pairs.filter fun pair => 2 ≤ entry m.counts pair.1 pair.2
  if valid.isEmpty then none
  else
    let varying := valid.filter fun pair => 0 < varianceXOf m pair ∧ 0 < varianceYOf m pair
    if varying.isEmpty then none
    else
      let correlations := varying.map fun pair =>
        covarianceOf m pair / sqrt (varianceXOf m pair * varianceYOf m pair)
      some (correlations.sum / correlations.length)

/-- `_average_pairwise_correlation` -/
def averagePairwiseCorrelation (tickers : List String) (priceRows : List (PriceRow K)) : Option K :=
  let returns := tickerReturns tickers priceRows
  if returns.length < 2 then none
  else
    let dates := sortedSet (returns.flatMap fun (_, daily) => daily.keys)
    let values := returns.map fun (_, daily) => dates.map fun date => daily.get? date
    meanCorrelation sqrt (pairSums values) (upperPairs returns.length)

/-- The weight of each sector, in the order the sectors come up. -/
def sectorWeights (sectors : List String) (nameCount : ℕ) : List K :=
  (Dict.group id 0 (fun count _ => count + 1) sectors).values.map fun count : ℕ => (count : K) / nameCount

/-- How far the names spread over sectors, between 0 and 1. -/
def sectorSpread (effectiveSectors : K) (nameCount : ℕ) : K :=
  let spread := if 1 < nameCount then (effectiveSectors - 1) / (nameCount - 1) else 1
  min 1 (max 0 spread)

def correlationSpread (averageCorrelation : Option K) : K :=
  match averageCorrelation with
  | some correlation => 1 - max 0 correlation
  | none => 1

/-- The measures of a portfolio before they are rounded. -/
def unroundedRisk (candidates : List Candidate) (priceRows : List (PriceRow K)) : Option (PortfolioRisk K) :=
  let named := candidates.filter fun item => item.ticker.any (· ≠ "")
  let tickers := named.map fun item => zfill 6 (textOr "" item.ticker)
  if tickers.isEmpty then none
  else
    let sectors := named.map fun item => textOr "미분류" item.sector
    let nameCount := tickers.length
    let weights : List K := sectorWeights sectors nameCount
    let hhi := (weights.map fun w => w * w).sum
    let effectiveSectors := if 0 < hhi then 1 / hhi else 0
    let averageCorrelation := averagePairwiseCorrelation sqrt tickers.dedup priceRows
    some {
      nameCount
      sectorCount := weights.length
      effectiveSectors
      topSectorWeight := weights.tail.foldl max (weights.headD 1)
      averageCorrelation
      diversificationScore :=
        sqrt (sectorSpread effectiveSectors nameCount * correlationSpread averageCorrelation) }

variable (round : ℕ → K → K)

/-- `_measure_portfolio_risk` -/
def measurePortfolioRisk (candidates : List Candidate) (priceRows : List (PriceRow K)) :
    Option (PortfolioRisk K) :=
  (unroundedRisk sqrt candidates priceRows).map fun risk =>
    { risk with
      effectiveSectors := round 4 risk.effectiveSectors
      topSectorWeight := round 4 risk.topSectorWeight
      averageCorrelation := risk.averageCorrelation.map (round 4)
      diversificationScore := round 4 risk.diversificationScore }

end

end QuantAgent.Risk
