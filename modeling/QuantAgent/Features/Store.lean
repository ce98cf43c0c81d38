import QuantAgent.Features.Conditions
import QuantAgent.Lib.Grouped
import Mathlib.Order.Lex

namespace QuantAgent.Features
set_option autoImplicit true

/-- A value of a price row. -/
inductive Cell (F : Type) where
  | none
  | bool (b : Bool)
  | number (x : F)
  | text (s : String)

abbrev Row (F : Type) := Dict String (Cell F)

section
variable {F : Type} [NumPy F]

def Cell.truthy : Cell F → Bool
  | .none => false
  | .bool b => b
  | .number x => x != 0
  | .text s => decide (s ≠ "")

/-- `str(value)` -/
def Cell.str : Cell F → String
  | .none => "None"
  | .bool b => if b then "True" else "False"
  | .number x => PyFloat.text x
  | .text s => s

/-- `float(value)` -/
def Cell.float : Cell F → Except PyError F
  | .none => .error (.typeError "float() argument must be a string or a real number, not 'NoneType'")
  | .bool b => .ok (if b then 1 else 0)
  | .number x => .ok x
  | .text s =>
    (NumPy.ofText s).elim (.error (.valueError ("could not convert string to float: '" ++ s ++ "'"))) .ok

/-- `x or y` -/
def Cell.or (x y : Cell F) : Cell F := if x.truthy then x else y

/-- The number a cell carries, or NaN: neither a flag nor an infinity is one. -/
def Cell.measured : Cell F → F
  | .number x => if PyFloat.isFinite x then x else NumPy.nan
  | _ => NumPy.nan

/-- `row.get(key)` -/
def Row.value (row : Row F) (key : String) : Cell F := (row.get? key).getD .none

def Row.date (row : Row F) : String := ((row.value "date").or (.text "")).str

def Row.ticker (row : Row F) : String := zfill 6 ((row.value "ticker").or (.text "000000")).str

/-- `row["close"]` -/
def Row.closeCell (row : Row F) : Except PyError (Cell F) :=
  (row.get? "close").elim (.error (.keyError "close")) .ok

/-- `float(row.get(key, row["close"]) or row["close"])` -/
def Row.floatOrClose (row : Row F) (key : String) : Except PyError F := do
  let close ← row.closeCell
  (((row.get? key).getD close).or close).float

/-- `_optional_metric` -/
def optionalMetric (row : Row F) : List String → F
  | [] => NumPy.nan
  | key :: keys =>
    match row.value key with
    | .number x => if PyFloat.isFinite x then x else optionalMetric row keys
    | _ => optionalMetric row keys

/-- One row of the store, parsed. -/
structure Bar (F : Type) where
  date : String
  ticker : String
  close : F
  open_ : F
  high : F
  low : F
  volume : F
  rsi : F
  row : Row F

def Row.bar (row : Row F) : Except PyError (Bar F) := do
  let close ← (← row.closeCell).float
  let open_ ← row.floatOrClose "open"
  let high ← row.floatOrClose "high"
  let low ← row.floatOrClose "low"
  let volume ← (((row.get? "volume").getD (.number 0)).or (.number 0)).float
  pure ⟨row.date, row.ticker, close, open_, high, low, volume, optionalMetric row ["rsi", "RSI_14"], row⟩

end

/-- The feature arrays of one set of rows. -/
structure PreparedFeatureStore (F : Type) where
  bars : List (Bar F)

/-- `(date, ticker)` pairs in the order of Python's tuples. -/
def dateTickerLT (a b : String × String) : Bool :=
  decide (a.1 < b.1) || decide (a.1 = b.1) && decide (a.2 < b.2)

namespace PreparedFeatureStore

def ofRows {F : Type} [NumPy F] (rows : List (Row F)) (rowsAreSorted : Bool) :
    Except PyError (PreparedFeatureStore F) := do
  let rows := if rowsAreSorted then rows
    else pySorted (fun a b => dateTickerLT (a.date, a.ticker) (b.date, b.ticker)) rows
  return ⟨← rows.mapM Row.bar⟩

variable {F : Type} (S : PreparedFeatureStore F)

def size : ℕ := S.bars.length

def dates : List String := S.bars.map Bar.date

def tickers : List String := S.bars.map Bar.ticker

/-- One value of every bar, in the order of the rows. -/
def column (f : Bar F → α) : List α := S.bars.map f

/-- The row indices of each session. -/
def dateRanges : List (List ℕ) :=
  (keyRuns S.dates (List.range S.size)).map fun run => run.map Prod.snd

/-- The store of the first `n` rows. -/
def take (n : ℕ) : PreparedFeatureStore F := ⟨S.bars.take n⟩

variable [NumPy F]

/-- `out = np.full(nan)`, then `out[indices] = g(xs[indices])` for the rows of every ticker. -/
def byTicker (g : List α → List F) (xs : List α) : List F := scatter NumPy.nan S.tickers g xs

/-- `out[start:end] = g(xs[start:end])` for the rows of every session. -/
def bySession (g : List α → List F) (xs : List α) : List F := byRun S.dates g xs

end PreparedFeatureStore

/-- Two stores with the same first `n` rows, where `n` ends a session of both. -/
structure SamePast (S T : PreparedFeatureStore F) (n : ℕ) : Prop where
  bars : S.bars.take n = T.bars.take n
  cut : RunCut S.dates n
  cut' : RunCut T.dates n

/-- An array of each store, with the same first `n` values. -/
structure Shared (S T : PreparedFeatureStore F) (n : ℕ) (x y : List α) : Prop where
  length : x.length = S.size
  length' : y.length = T.size
  take : x.take n = y.take n

namespace Shared
variable {S T : PreparedFeatureStore F}

theorem column (h : SamePast S T n) (f : Bar F → α) : Shared S T n (S.column f) (T.column f) where
  length := List.length_map _
  length' := List.length_map _
  take := by rw [PreparedFeatureStore.column, PreparedFeatureStore.column, ← List.map_take, h.bars,
    List.map_take]

theorem map {x y : List α} (h : Shared S T n x y) (f : α → β) : Shared S T n (x.map f) (y.map f) where
  length := by rw [List.length_map, h.length]
  length' := by rw [List.length_map, h.length']
  take := by rw [← List.map_take, h.take, List.map_take]

theorem zipWith {x y : List α} {x' y' : List β} (h : Shared S T n x y) (h' : Shared S T n x' y')
    (f : α → β → γ) : Shared S T n (List.zipWith f x x') (List.zipWith f y y') where
  length := by rw [List.length_zipWith, h.length, h'.length, min_self]
  length' := by rw [List.length_zipWith, h.length', h'.length', min_self]
  take := by rw [List.take_zipWith, h.take, h'.take, ← List.take_zipWith]

theorem zip {x y : List α} {x' y' : List β} (h : Shared S T n x y) (h' : Shared S T n x' y') :
    Shared S T n (x.zip x') (y.zip y') := h.zipWith h' Prod.mk

theorem getElem? (h : Shared S T n x y) (hi : i < n) : x[i]? = y[i]? := by
  rw [← List.getElem?_take_of_lt hi, h.take, List.getElem?_take_of_lt hi]

/-- Where the cut is the end of one store on both sides, the arrays are equal. -/
theorem eq (h : Shared S S S.size x y) : x = y := by
  have htake := h.take
  rwa [List.take_of_length_le h.length.le, List.take_of_length_le h.length'.le] at htake

theorem bySession (hpast : SamePast S T n) {g : List α → List F}
    (hg : ∀ l, (g l).length = l.length) (h : Shared S T n x y) :
    Shared S T n (S.bySession g x) (T.bySession g y) := by
  have hkeys : S.dates.take n = T.dates.take n := (Shared.column hpast Bar.date).take
  have hsize : S.dates.length = S.size := List.length_map _
  have hsize' : T.dates.length = T.size := List.length_map _
  have hx : x.length = S.dates.length := h.length.trans hsize.symm
  have hy : y.length = T.dates.length := h.length'.trans hsize'.symm
  refine ⟨(length_byRun hg hx).trans hsize, (length_byRun hg hy).trans hsize', ?_⟩
  unfold PreparedFeatureStore.bySession
  rw [byRun_take hg hx hpast.cut, byRun_take hg hy hpast.cut', hkeys, h.take]

theorem byTicker [NumPy F] (hpast : SamePast S T n) {g : List α → List F} (hg : Causal g)
    (h : Shared S T n x y) : Shared S T n (S.byTicker g x) (T.byTicker g y) where
  length := by simp [PreparedFeatureStore.byTicker, PreparedFeatureStore.tickers,
    PreparedFeatureStore.size]
  length' := by simp [PreparedFeatureStore.byTicker, PreparedFeatureStore.tickers,
    PreparedFeatureStore.size]
  take := by
    have hkeys : S.tickers.take n = T.tickers.take n := (Shared.column hpast Bar.ticker).take
    have hx : x.length = S.tickers.length := h.length.trans (List.length_map _).symm
    have hy : y.length = T.tickers.length := h.length'.trans (List.length_map _).symm
    unfold PreparedFeatureStore.byTicker
    rw [scatter_take _ hg hx, scatter_take _ hg hy, hkeys, h.take]

end Shared

theorem SamePast.refl (S : PreparedFeatureStore F) : SamePast S S S.size := by
  have hsize : S.dates.length ≤ S.size := (List.length_map _).le
  exact ⟨rfl, .of_length_le hsize, .of_length_le hsize⟩

end QuantAgent.Features
