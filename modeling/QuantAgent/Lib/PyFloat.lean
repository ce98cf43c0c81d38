import Mathlib.Algebra.Order.Floor.Ring
import Mathlib.Data.Rat.Floor
import Mathlib.Tactic

namespace QuantAgent
set_option autoImplicit true

/-- The exceptions the modelled code can raise. -/
inductive PyError where
  | valueError (message : String)
  | keyError (key : String)
  | indexError
  | typeError (message : String)
  | zeroDivisionError
  | overflowError
  | invalidOperation
deriving DecidableEq, Repr

/-- What the engine uses of Python's `float`, and of `Decimal` built from its text. -/
class PyFloat (F : Type) extends Add F, Sub F, Mul F, Div F, Neg F, Zero F, One F,
    LT F, LE F, BEq F where
  decidableLT : DecidableLT F
  decidableLE : DecidableLE F
  ofInt : ℤ → F
  isFinite : F → Bool
  /-- `int(x)` -/
  trunc : F → Except PyError ℤ
  /-- `int(x // y)` -/
  floorDiv : F → F → Except PyError ℤ
  /-- `round(x, n)` -/
  round : ℕ → F → F
  /-- `Decimal(str(x)).quantize(Decimal(1).scaleb(-n), ROUND_FLOOR)` -/
  quantizeFloor : ℕ → F → Except PyError F
  /-- The same with `ROUND_HALF_UP`. -/
  quantizeHalfUp : ℕ → F → Except PyError F
  /-- `str(x)` -/
  text : F → String
  /-- `f"{x:.0%}"` -/
  percentText : F → String

attribute [reducible] PyFloat.decidableLT PyFloat.decidableLE
attribute [instance] PyFloat.decidableLT PyFloat.decidableLE

section Generic
variable {F : Type} [PyFloat F]

def pyMin (a b : F) : F := if b < a then b else a

def pyMax (a b : F) : F := if a < b then b else a

/-- `sum(xs)`, from the left and starting at zero. -/
def pySum (xs : List F) : F := xs.foldl (· + ·) 0

end Generic

def roundHalfEven (q : ℚ) : ℤ :=
  let f := ⌊q⌋
  if q - f < 1 / 2 then f else if 1 / 2 < q - f then f + 1 else if f % 2 = 0 then f else f + 1

def roundHalfUp (q : ℚ) : ℤ := if 0 ≤ q then ⌊q + 1 / 2⌋ else -⌊-q + 1 / 2⌋

def ratText (q : ℚ) : String :=
  if q.den = 1 then toString q.num else toString q.num ++ "/" ++ toString q.den

/-- Exact arithmetic: floats and decimals read as rationals. -/
instance : PyFloat ℚ where
  decidableLT := inferInstance
  decidableLE := inferInstance
  ofInt n := n
  isFinite _ := true
  trunc q := .ok (if 0 ≤ q then ⌊q⌋ else ⌈q⌉)
  floorDiv x y := if y = 0 then .error .zeroDivisionError else .ok ⌊x / y⌋
  round n q := roundHalfEven (q * 10 ^ n) / 10 ^ n
  quantizeFloor n q := .ok (⌊q * 10 ^ n⌋ / 10 ^ n)
  quantizeHalfUp n q := .ok (roundHalfUp (q * 10 ^ n) / 10 ^ n)
  text := ratText
  percentText q := toString (roundHalfEven (q * 100)) ++ "%"

@[simp] theorem rat_ofInt (n : ℤ) : (PyFloat.ofInt n : ℚ) = n := rfl

@[simp] theorem rat_isFinite (q : ℚ) : PyFloat.isFinite q = true := rfl

theorem rat_trunc (q : ℚ) : PyFloat.trunc q = .ok (if 0 ≤ q then ⌊q⌋ else ⌈q⌉) := rfl

theorem rat_floorDiv (x y : ℚ) :
    PyFloat.floorDiv x y = if y = 0 then .error .zeroDivisionError else .ok ⌊x / y⌋ := rfl

theorem rat_quantizeFloor (n : ℕ) (q : ℚ) :
    PyFloat.quantizeFloor n q = .ok ((⌊q * 10 ^ n⌋ : ℚ) / 10 ^ n) := rfl

theorem rat_quantizeHalfUp (n : ℕ) (q : ℚ) :
    PyFloat.quantizeHalfUp n q = .ok ((roundHalfUp (q * 10 ^ n) : ℚ) / 10 ^ n) := rfl

theorem rat_pySum (xs : List ℚ) : pySum xs = xs.sum := by
  have hfold : ∀ (xs : List ℚ) (a : ℚ), xs.foldl (· + ·) a = a + xs.sum := by
    intro xs
    induction xs with
    | nil => simp
    | cons x xs ih =>
      intro a
      rw [List.foldl_cons, ih, List.sum_cons, add_assoc]
  exact (hfold xs 0).trans (zero_add _)

theorem rat_pyMin (a b : ℚ) : pyMin a b = min a b := by
  unfold pyMin
  split
  · rename_i h
    exact (min_eq_right h.le).symm
  · rename_i h
    exact (min_eq_left (not_lt.mp h)).symm

theorem rat_pyMax (a b : ℚ) : pyMax a b = max a b := by
  unfold pyMax
  split
  · rename_i h
    exact (max_eq_right h.le).symm
  · rename_i h
    exact (max_eq_left (not_lt.mp h)).symm

end QuantAgent
