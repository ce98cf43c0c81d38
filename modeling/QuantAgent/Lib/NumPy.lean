import QuantAgent.Lib.PyFloat
import QuantAgent.Lib.Causal

namespace QuantAgent
set_option autoImplicit true

/-- What the feature arrays use of a numpy `float64` beyond Python's `float`. -/
class NumPy (F : Type) extends PyFloat F where
  nan : F
  sqrt : F → F
  abs : F → F
  /-- `np.sum`; the order of the additions is numpy's own. -/
  sum : List F → F
  /-- `np.argsort`; the order of equal values is numpy's own. -/
  argsort : List F → List ℕ
  /-- `float(s)` for a text, if it is one of a number. -/
  ofText : String → Option F

section Scalars
variable {F : Type} [NumPy F]

/-- The literal `n.0`. -/
def lit (n : ℕ) : F := PyFloat.ofInt n

/-- The literal with the digits of `n` and `k` of them behind the point. -/
def decimal (n k : ℕ) : F := lit n / lit (10 ^ k)

def isNaN (x : F) : Bool := !(x == x)

/-- `np.maximum(a, b)` -/
def npMaximum (a b : F) : F :=
  if isNaN a then a else if isNaN b then b else if a < b then b else a

/-- `np.minimum(a, b)` -/
def npMinimum (a b : F) : F :=
  if isNaN a then a else if isNaN b then b else if b < a then b else a

def npMax : List F → F
  | [] => NumPy.nan
  | x :: xs => xs.foldl npMaximum x

def npMin : List F → F
  | [] => NumPy.nan
  | x :: xs => xs.foldl npMinimum x

def npMean (xs : List F) : F := NumPy.sum xs / lit xs.length

/-- `np.std(xs, ddof=ddof)` -/
def npStd (ddof : ℕ) (xs : List F) : F :=
  let mean := npMean xs
  NumPy.sqrt (NumPy.sum (xs.map fun x => (x - mean) * (x - mean)) / lit (xs.length - ddof))

def npSign (x : F) : F := if x < 0 then -1 else if 0 < x then 1 else if x == 0 then 0 else x

/-- `np.nan_to_num(x, nan=0.0)` -/
def nanToZero (x : F) : F := if isNaN x then 0 else x

/-- The index of the first largest entry under `better`, where a NaN beats every number. -/
def npArgBest (better : F → F → Bool) : List F → ℕ
  | [] => 0
  | x :: xs =>
    let best := (xs.zipIdx 1).foldl
      (fun (b : F × ℕ) e => if !isNaN b.1 && (isNaN e.1 || better e.1 b.1) then e else b) (x, 0)
    best.2

def npCumsum (xs : List F) : List F := loopMap (fun s x => (s + x, s + x)) 0 xs

/-- `np.maximum.accumulate` -/
def npMaximumAccumulate : List F → List F
  | [] => []
  | x :: xs => x :: loopMap (fun s y => (npMaximum s y, npMaximum s y)) x xs

/-- `_array_ratio` -/
def arrayRatio (numerator denominator : F) : F :=
  if PyFloat.isFinite numerator && PyFloat.isFinite denominator && denominator != 0 then
    numerator / denominator
  else NumPy.nan

/-- `_array_return` -/
def arrayReturn (value base : F) : F :=
  let output := arrayRatio value base
  if PyFloat.isFinite output then output - 1 else output

end Scalars

/-- A float that is a number or NaN. Numbers are exact; a quotient by zero is NaN. -/
inductive Flt (K : Type) where
  | num (x : K)
  | nan
deriving DecidableEq, Repr

/-- `math.sqrt` -/
class PySqrt (K : Type) where
  sqrt : K → K

namespace Flt
variable {K : Type}

def map₂ (f : K → K → K) : Flt K → Flt K → Flt K
  | num x, num y => num (f x y)
  | _, _ => nan

def holds (p : K → K → Prop) : Flt K → Flt K → Prop
  | num x, num y => p x y
  | _, _ => False

instance (p : K → K → Prop) [∀ x y, Decidable (p x y)] (a b : Flt K) : Decidable (holds p a b) :=
  match a, b with
  | num x, num y => inferInstanceAs (Decidable (p x y))
  | num _, nan => isFalse id
  | nan, num _ => isFalse id
  | nan, nan => isFalse id

/-- A function of Python floats that raises on NaN. -/
def lift (f : K → Except PyError α) : Flt K → Except PyError α
  | num x => f x
  | nan => .error (.valueError "cannot convert float NaN to integer")

instance [PyFloat K] [PySqrt K] : NumPy (Flt K) where
  add := map₂ (· + ·)
  sub := map₂ (· - ·)
  mul := map₂ (· * ·)
  div
    | num x, num y => if y == 0 then nan else num (x / y)
    | _, _ => nan
  neg
    | num x => num (-x)
    | nan => nan
  zero := num 0
  one := num 1
  lt := holds (· < ·)
  le := holds (· ≤ ·)
  beq
    | num x, num y => x == y
    | _, _ => false
  decidableLT := inferInstanceAs (∀ a b, Decidable (holds (· < ·) a b))
  decidableLE := inferInstanceAs (∀ a b, Decidable (holds (· ≤ ·) a b))
  ofInt n := num (PyFloat.ofInt n)
  isFinite
    | num x => PyFloat.isFinite x
    | nan => false
  trunc := lift PyFloat.trunc
  floorDiv
    | num x, num y => PyFloat.floorDiv x y
    | _, _ => .error (.valueError "cannot convert float NaN to integer")
  round n
    | num x => num (PyFloat.round n x)
    | nan => nan
  quantizeFloor n := lift fun x => num <$> PyFloat.quantizeFloor n x
  quantizeHalfUp n := lift fun x => num <$> PyFloat.quantizeHalfUp n x
  text
    | num x => PyFloat.text x
    | nan => "nan"
  percentText
    | num x => PyFloat.percentText x
    | nan => "nan%"
  nan := nan
  sqrt
    | num x => if x < 0 then nan else num (PySqrt.sqrt x)
    | nan => nan
  abs
    | num x => num (if x < 0 then -x else x)
    | nan => nan
  sum xs := xs.foldl (map₂ (· + ·)) (num 0)
  argsort xs := (pySorted (fun a b => decide (holds (· < ·) a.1 b.1)) xs.zipIdx).map Prod.snd
  ofText _ := none

end Flt

/-- The root to nine places, rounded up. -/
instance : PySqrt ℚ where
  sqrt q := if q ≤ 0 then 0 else (Nat.sqrt ⌈q * 10 ^ 18⌉.toNat + 1 : ℚ) / 10 ^ 9

end QuantAgent
