import QuantAgent.Features.Compiler
import QuantAgent.Features.Store
import QuantAgent.Lib.Trace

namespace QuantAgent.Features
set_option autoImplicit true

/-! `build_signals` as `_render_condition_signal_code` writes it, up to the entry test of a bar. -/

/-- A value of the rendered code: a float, or the infinity that stands for a figure not filed. -/
inductive Reading (F : Type) where
  | value (x : F)
  | infinite (positive : Bool)

/-- What ends an expression without a value. -/
inductive Stop where
  | raised (error : PyError)
  | nameError (name : String)

/-- The exceptions the template catches around the entry test. -/
def Stop.caught : Stop → Bool
  | .raised (.typeError _) | .raised (.valueError _) | .raised .zeroDivisionError
  | .raised .indexError => true
  | _ => false

abbrev Eval (α : Type) := Except Stop α

namespace Reading
variable {F : Type} [NumPy F]

def lt : Reading F → Reading F → Bool
  | value x, value y => decide (x < y)
  | value x, infinite positive => positive && !isNaN x
  | infinite positive, value y => !positive && !isNaN y
  | infinite positive, infinite positive' => !positive && positive'

def le : Reading F → Reading F → Bool
  | value x, value y => decide (x ≤ y)
  | value x, infinite positive => positive && !isNaN x
  | infinite positive, value y => !positive && !isNaN y
  | infinite positive, infinite positive' => !positive || positive'

def eq : Reading F → Reading F → Bool
  | value x, value y => x == y
  | infinite positive, infinite positive' => positive == positive'
  | _, _ => false

def mul : Reading F → F → Reading F
  | value x, factor => value (x * factor)
  | infinite positive, factor =>
    if 0 < factor then infinite positive else if factor < 0 then infinite !positive else value NumPy.nan

/-- `left op right`, for the signs of `_OPERATOR`. -/
def compare (left : Reading F) (operator : ConditionOperator) (right : Reading F) : Bool :=
  match operator with
  | .lt => left.lt right
  | .lte => left.le right
  | .gt => right.lt left
  | .gte => right.le left
  | .eq => left.eq right
  | .ne => !left.eq right
  | .between | .crossAbove | .crossBelow => false

end Reading

/-- The lists of `histories`: the bars of a ticker before the current one. -/
structure PriceHistory (F : Type) where
  opens : List F
  highs : List F
  lows : List F
  closes : List F
  volumes : List F

def PriceHistory.empty : PriceHistory F := ⟨[], [], [], [], []⟩

/-- A bar with what the template binds for it. -/
structure SignalBar (F : Type) where
  row : Row F
  open_price : F
  high_price : F
  low_price : F
  close : F
  volume : F
  hist : PriceHistory F

section Rows
variable {F : Type} [NumPy F]

def raised (x : Except PyError α) : Eval α := x.mapError .raised

/-- `_fin` -/
def Row.fin (row : Row F) (key : String) : Reading F :=
  match row.value key with
  | .number x => .value x
  | .bool b => .value (if b then 1 else 0)
  | _ => .infinite false

/-- `_ind`, or NaN for a missing indicator. -/
def Row.ind (row : Row F) (key : String) : F :=
  match row.value key with
  | .number x => x
  | _ => NumPy.nan

/-- `float(row.get(key, row.get("close", 0)))` -/
def Row.signalFloat (row : Row F) (key : String) : Except PyError F :=
  ((row.get? key).getD ((row.get? "close").getD (.number 0))).float

/-- `row.get("ticker", "000000")` -/
def Row.signalTicker (row : Row F) : String := ((row.get? "ticker").getD (.text "000000")).str

/-- `row["date"]` -/
def Row.signalDate (row : Row F) : Except PyError String :=
  (row.get? "date").elim (.error (.keyError "date")) fun cell => .ok cell.str

def Row.signalBar (row : Row F) (hist : PriceHistory F) : Except PyError (SignalBar F) := do
  let open_price ← row.signalFloat "open"
  let high_price ← row.signalFloat "high"
  let low_price ← row.signalFloat "low"
  let close ← (← row.closeCell).float
  let volume ← ((row.get? "volume").getD (.number 0)).float
  pure ⟨row, open_price, high_price, low_price, close, volume, hist⟩

/-- The appends that follow the entry test. -/
def SignalBar.appended (bar : SignalBar F) : PriceHistory F where
  opens := bar.hist.opens ++ [bar.open_price]
  highs := bar.hist.highs ++ [bar.high_price]
  lows := bar.hist.lows ++ [bar.low_price]
  closes := bar.hist.closes ++ [bar.close]
  volumes := bar.hist.volumes ++ [bar.volume]

/-- One row of the loop of `build_signals`. -/
def signalStep (histories : Dict String (PriceHistory F)) (row : Row F) :
    Except PyError (Dict String (PriceHistory F) × List (SignalBar F)) := do
  let bar ← row.signalBar ((histories.get? row.signalTicker).getD .empty)
  pure (histories.insert row.signalTicker bar.appended, [bar])

/-- The bars in the order the rendered code meets them. -/
def signalBars (prices : List (Row F)) : Except PyError (List (SignalBar F)) := do
  let dated ← prices.mapM fun row => do
    let date ← row.signalDate
    pure (date, row)
  let rows := pySorted (fun a b => dateTickerLT (a.1, a.2.signalTicker) (b.1, b.2.signalTicker)) dated
  let traced ← traceM signalStep .empty (rows.map Prod.snd)
  pure traced.2

end Rows

section Expressions
variable {F : Type} [NumPy F]

/-- `sum(xs) / len(xs) if xs else 0.0` -/
def pyAverage (xs : List F) : F := if xs = [] then 0 else pySum xs / lit xs.length

/-- `max(xs)` and `min(xs)` -/
def pyExtreme (pick : F → F → F) : List F → Except PyError F
  | [] => .error (.valueError "iterable argument is empty")
  | x :: xs => .ok (xs.foldl pick x)

/-- `xs[-n]` -/
def fromEnd (xs : List F) (n : ℕ) : Except PyError F :=
  (xs.reverse[n - 1]?).elim (.error .indexError) .ok

/-- `x / y if y else 0.0` -/
def guardedRatio (x y : F) : F := if y != 0 then x / y else 0

namespace SignalBar
variable (bar : SignalBar F)

/-- The lists of `_HISTORY`. -/
def history (metric : String) : List F :=
  if metric = "open" then bar.hist.opens
  else if metric = "high" then bar.hist.highs
  else if metric = "low" then bar.hist.lows
  else if metric = "close" then bar.hist.closes
  else bar.hist.volumes

/-- The variables of `_CURRENT`. -/
def current (metric : String) : F :=
  if metric = "open" then bar.open_price
  else if metric = "high" then bar.high_price
  else if metric = "low" then bar.low_price
  else if metric = "close" then bar.close
  else if metric = "volume" then bar.volume
  else bar.row.ind metric

/-- The expressions of `_DERIVED`. -/
def derived (metric : String) : Except PyError F :=
  if metric = "high_252" then pyExtreme pyMax (lastN 252 bar.hist.highs)
  else if metric = "low_252" then pyExtreme pyMin (lastN 252 bar.hist.lows)
  else if metric = "close_to_sma20" then .ok (guardedRatio bar.close (bar.current "sma20"))
  else if metric = "close_to_sma200" then .ok (guardedRatio bar.close (bar.current "sma200"))
  else .ok (guardedRatio bar.volume (pyAverage (lastN 20 bar.hist.volumes)))

def series : SeriesExpr → Eval (Reading F)
  | .current metric => .ok (.value (bar.current metric))
  | .filed metric => .ok (bar.row.fin metric)
  | .derived metric => raised (.value <$> bar.derived metric)
  | .unbound metric => .error (.nameError metric)
  | .average metric window => .ok (.value (pyAverage (lastN window (bar.history metric))))
  | .previous metric => raised (.value <$> fromEnd (bar.history metric) 1)
  | .reduce aggregate metric window =>
    match aggregate with
    | .max => raised (.value <$> pyExtreme pyMax (lastN window (bar.history metric)))
    | .min => raised (.value <$> pyExtreme pyMin (lastN window (bar.history metric)))
    | _ => .ok (.value (pySum (lastN window (bar.history metric))))
  | .closes window => .ok (.value (pyAverage (lastN (window - 1) bar.hist.closes ++ [bar.close])))
  | .closesBefore window => .ok (.value (pyAverage (lastN window bar.hist.closes)))
  | .indicator metric => .ok (.value (bar.row.ind metric))
  | .missing => .ok (.value NumPy.nan)

/-- A number as `repr` writes it: the text of a NaN or of an infinity is read back as a name. -/
def number (x : F) : Eval F :=
  if PyFloat.isFinite x then .ok x else .error (.nameError (PyFloat.text x))

def value : ValueExpr F → Eval (Reading F)
  | .series expr => bar.series expr
  | .literal x => .value <$> number x
  | .scaled expr factor => do
    let reading ← value expr
    let factor ← number factor
    pure (reading.mul factor)

/-- `x` and `y`, where `y` is only looked at if `x` is true. -/
def both (x : Bool) (y : Eval Bool) : Eval Bool := if x then y else .ok false

/-- A cross of the close over a level, two closes back on the other side. -/
def crossed (above : Bool) (level : F) : Eval Bool :=
  both (if above then decide (level < bar.close) else decide (bar.close < level)) do
    let before ← raised (fromEnd bar.hist.closes 2)
    pure (if above then decide (before ≤ level) else decide (level ≤ before))

/-- The expressions of `_BOOLEAN_EXPRESSIONS`. -/
def flag (name : String) : Eval Bool :=
  if name = "breakout_high" then breakout 252
  else if name = "breakout_high_20" then breakout 20
  else if name = "close_below_lower_band_recent" then do
    let lowest ← raised (pyExtreme pyMin (lastN 5 bar.hist.closes))
    pure (decide (lowest ≤ bar.current "bb_lower"))
  else if name = "close_cross_above_lower_band" then bar.crossed true (bar.current "bb_lower")
  else if name = "close_cross_above_sma20" then bar.crossed true (bar.current "sma20")
  else bar.crossed false (bar.current "sma20")
where
  breakout (window : ℕ) : Eval Bool := do
    let highest ← raised (pyExtreme pyMax (lastN window bar.hist.highs))
    pure (decide (highest * decimal 995 3 ≤ bar.close))

/-- What a compiled test is worth on the bar. -/
def test : TestExpr F → Eval Bool
  | .flag name asserted => do return (← bar.flag name) == asserted
  | .levels left operator right =>
    .ok (Reading.compare (.value (bar.current left)) operator (.value (bar.current right)))
  | .streak metric count =>
    .ok (Reading.compare (bar.row.fin (metric ++ "_up_streak")) .gte (.value (lit count)))
  | .between low expr high => do
    let low ← number low
    let reading ← bar.series expr
    both (Reading.le (.value low) reading) do
      let high ← number high
      pure (reading.le (.value high))
  | .compare left operator right => do
    let left ← bar.value left
    let right ← bar.value right
    pure (Reading.compare left operator right)
  | .cross above left right previousLeft previousRight => do
    let left ← bar.value left
    let right ← bar.value right
    both (if above then right.lt left else left.lt right) do
      let previousLeft ← bar.value previousLeft
      let previousRight ← bar.value previousRight
      pure (if above then previousLeft.le previousRight else previousRight.le previousLeft)

/-- The tests joined by `and`. -/
def tests : List (TestExpr F) → Eval Bool
  | [] => .ok true
  | test :: rest => do both (← bar.test test) (tests rest)

/-- `entry_ok` of the bar, before the cross-sectional cuts. -/
def entryOk (compiled : CompiledConditions F) : Eval Bool :=
  if bar.hist.closes.length < compiled.warmupBars then .ok false
  else
    match bar.tests compiled.perStock with
    | .ok entry => .ok entry
    | .error stop => if stop.caught then .ok false else .error stop

end SignalBar
end Expressions

end QuantAgent.Features
