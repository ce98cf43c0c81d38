import QuantAgent.WalkForward.Benchmark
import QuantAgent.Lib.PyDate

namespace QuantAgent.WalkForward
open Features
set_option autoImplicit true

/-- `int(text)`, of ASCII digits. -/
def pyInt? (text : List Char) : Option ℤ :=
  let body := ((text.dropWhile isPySpace).reverse.dropWhile isPySpace).reverse
  let magnitude (digits : List Char) : Option ℤ :=
    if ((pySplit '_' digits).all fun part => (digits? part).isSome) then
      (digits? (digits.filter (· ≠ '_'))).map Int.ofNat
    else none
  match body with
  | '-' :: digits => (magnitude digits).map (- ·)
  | '+' :: digits => magnitude digits
  | digits => magnitude digits

/-- `f"{n:0{width}d}"` -/
def zeroPadded (width : ℕ) (n : ℤ) : List Char :=
  let digits := Nat.toDigits 10 n.natAbs
  if n < 0 then '-' :: (List.replicate (width - 1 - digits.length) '0' ++ digits)
  else List.replicate (width - digits.length) '0' ++ digits

/-- `text[:7]` -/
def sessionMonth (text : String) : String := String.ofList (text.toList.take 7)

/-- `_previous_month` -/
def previousMonth (month : String) : String :=
  let year := month.toList.takeWhile (· ≠ '-')
  match month.toList.dropWhile (· ≠ '-') with
  | [] => month
  | _ :: number =>
    match pyInt? year, pyInt? number with
    | some year, some monthNumber =>
      if monthNumber = 1 then String.ofList (zeroPadded 4 (year - 1) ++ "-12".toList)
      else String.ofList (zeroPadded 4 year ++ '-' :: zeroPadded 2 (monthNumber - 1))
    | _, _ => month

/-- What is published for a month: a mapping, a pair, or something else. -/
inductive RawWeights (F : Type)
  | mapping (entries : Dict String (Cell F))
  | sequence (items : List (Cell F))
  | other

/-- A month's units and the month they were set in. -/
structure ActiveUnits (F : Type) where
  month : String
  units : F × F

/-- What the loop over the sessions carries. -/
structure CurveState (F : Type) where
  active : Option (ActiveUnits F)
  baseValue : Option F

section
variable {F : Type} [NumPy F] (parseFloat : String → Option F)

/-- `_official_benchmark_weight_pair` -/
def officialBenchmarkWeightPair (value : RawWeights F) : Option (F × F) :=
  let candidate := match value with
    | .mapping entries => some (Row.value entries "kospi_weight", Row.value entries "kosdaq_weight")
    | .sequence [first, second] => some (first, second)
    | .sequence _ => none
    | .other => none
  candidate.bind fun (kospi, kosdaq) =>
    match finiteFloat parseFloat kospi "kospi_weight", finiteFloat parseFloat kosdaq "kosdaq_weight" with
    | .ok kospi, .ok kosdaq => some (kospi, kosdaq)
    | _, _ => none

/-- The weights that can be read, under the month they were published for. -/
def publishedWeights (monthlyWeights : Option (List (String × RawWeights F))) : Dict String (F × F) :=
  (monthlyWeights.getD []).foldl (fun published (rawMonth, rawWeights) =>
    match officialBenchmarkWeightPair parseFloat rawWeights with
    | some pair => published.insert (sessionMonth rawMonth) pair
    | none => published) Dict.empty

/-- `_lagged_official_benchmark_weights` -/
def laggedOfficialBenchmarkWeights (monthlyWeights : Option (List (String × RawWeights F)))
    (sessions : List String) : Dict String (F × F) :=
  let published := publishedWeights parseFloat monthlyWeights
  sessions.foldl (fun lagged session =>
    let month := sessionMonth session
    if month ∈ lagged then lagged
    else
      match published.get? (previousMonth month) with
      | some pair => lagged.insert month pair
      | none => lagged) Dict.empty

/-- `math.isclose(a, b, abs_tol=tolerance)` -/
def isClose (a b tolerance : F) : Bool :=
  let distance := NumPy.abs (b - a)
  let relative : F := decimal 1 9
  a == b || decide (distance ≤ NumPy.abs (relative * b)) ||
    decide (distance ≤ NumPy.abs (relative * a)) || decide (distance ≤ tolerance)

/-- The level of a session, read from the series. -/
def levelAt (series : Dict String (Cell F)) (fieldName date : String) : Except PyError F := do
  let value ← (series.get? date).elim (.error (.keyError date)) .ok
  finiteFloat parseFloat value fieldName

/-- The weights of a month, checked. -/
def targetWeights (laggedTargetWeights : Dict String (F × F)) (month : String) : Except PyError (F × F) :=
  match laggedTargetWeights.get? month with
  | none => .error (.valueError ("missing lagged official benchmark weights for " ++ month))
  | some (kospiWeight, kosdaqWeight) =>
    if !PyFloat.isFinite kospiWeight || !PyFloat.isFinite kosdaqWeight || decide (kospiWeight < 0) ||
        decide (kosdaqWeight < 0) || !isClose (kospiWeight + kosdaqWeight) 1 (decimal 1 9) then
      .error (.valueError "official benchmark target weights must be finite, non-negative, and sum to 1")
    else .ok (kospiWeight, kosdaqWeight)

/-- What the units of the month before are worth. -/
def carriedValue (units : Option (F × F)) (kospiLevel kosdaqLevel : F) : F :=
  match units with
  | none => 1
  | some units => units.1 * kospiLevel + units.2 * kosdaqLevel

/-- The units set at a month's first session. -/
def rebalancedUnits (weights : F × F) (units : Option (F × F)) (kospiLevel kosdaqLevel : F) :
    Except PyError (F × F) :=
  if kospiLevel ≤ 0 ∨ kosdaqLevel ≤ 0 then
    .error (.valueError "official benchmark TR levels must be positive")
  else
    let portfolioValue := carriedValue units kospiLevel kosdaqLevel
    .ok (portfolioValue * weights.1 / kospiLevel, portfolioValue * weights.2 / kosdaqLevel)

variable (kospiTr kosdaqTr : Dict String (Cell F)) (laggedTargetWeights : Dict String (F × F))

/-- The units a session is valued with. -/
def unitsAt (s : CurveState F) (date : String) : Except PyError (ActiveUnits F) :=
  let month := sessionMonth date
  match s.active.filter (·.month = month) with
  | some active => .ok active
  | none => do
    let weights ← targetWeights laggedTargetWeights month
    let kospiLevel ← levelAt parseFloat kospiTr "kospi_tr" date
    let kosdaqLevel ← levelAt parseFloat kosdaqTr "kosdaq_tr" date
    let units ← rebalancedUnits weights (s.active.map (·.units)) kospiLevel kosdaqLevel
    return ⟨month, units⟩

/-- The point of a session, relative to the first value of all. -/
def pointOf (active : ActiveUnits F) (base : Option F) (date : String) (value : F) :
    Except PyError (CurveState F × List (BacktestEquityPoint F)) :=
  let baseValue := base.getD value
  if baseValue == 0 then .error .zeroDivisionError
  else .ok (⟨some active, some baseValue⟩,
    [⟨date, PyFloat.round METRIC_ROUND_DIGITS (value / baseValue - 1)⟩])

def stepSession (s : CurveState F) (date : String) :
    Except PyError (CurveState F × List (BacktestEquityPoint F)) := do
  let active ← unitsAt parseFloat kospiTr kosdaqTr laggedTargetWeights s date
  let kospiLevel ← levelAt parseFloat kospiTr "kospi_tr" date
  let kosdaqLevel ← levelAt parseFloat kosdaqTr "kosdaq_tr" date
  pointOf active s.baseValue date (active.units.1 * kospiLevel + active.units.2 * kosdaqLevel)

/-- `sorted(set(kospi_tr) & set(kosdaq_tr))` -/
def commonSessions : List String := sortedSet (kospiTr.keys.filter (· ∈ kosdaqTr))

/-- `_official_krx_tr_benchmark_curve` -/
def officialKrxTrBenchmarkCurve : Except PyError (List (BacktestEquityPoint F) × Option F) := do
  let (_, curve) ← traceM (stepSession parseFloat kospiTr kosdaqTr laggedTargetWeights) ⟨none, none⟩
    (commonSessions kospiTr kosdaqTr)
  return (curve, curve.getLast?.map (·.cumulativeReturn))

/-- The curve as it is asked for, with the weights of the common sessions. -/
def officialBenchmarkCurve (monthlyWeights : Option (List (String × RawWeights F))) :
    Except PyError (List (BacktestEquityPoint F) × Option F) :=
  officialKrxTrBenchmarkCurve parseFloat kospiTr kosdaqTr
    (laggedOfficialBenchmarkWeights parseFloat monthlyWeights (commonSessions kospiTr kosdaqTr))

end

end QuantAgent.WalkForward
