import QuantAgent.Lib.NumPy

namespace QuantAgent
set_option autoImplicit true

/-- `math.nextafter(x, math.inf)` -/
class NextFloat (F : Type) where
  nextUp : F → F

/-- `math.ceil(x)` -/
def pyCeil [PyFloat F] (x : F) : Except PyError ℤ := do
  let floor ← PyFloat.floorDiv (-x) (1 : F)
  pure (-floor)

def powTwo : ℤ → ℚ
  | .ofNat n => 2 ^ n
  | .negSucc n => 1 / 2 ^ (n + 1)

/-- The largest `e` with `2 ^ e ≤ q`, for a positive `q`. -/
def binaryExponent (q : ℚ) : ℤ :=
  let e : ℤ := Nat.log2 q.num.natAbs - Nat.log2 q.den
  if powTwo e ≤ q then e else e - 1

/-- The distance of the doubles around `q`. -/
def unitInLastPlace (q : ℚ) : ℚ := powTwo (max (binaryExponent |q|) (-1022) - 52)

/-- The nearest double, ties to even; a quotient too large for a double is not reached. -/
def roundBinary64 (q : ℚ) : ℚ :=
  if q = 0 then 0 else roundHalfEven (q / unitInLastPlace q) * unitInLastPlace q

/-- A finite IEEE double, by its value; the sign of zero is not kept. -/
structure Binary64 where
  value : ℚ
deriving DecidableEq, Repr

namespace Binary64

/-- The double nearest to a rational. -/
def ofRat (q : ℚ) : Binary64 := ⟨roundBinary64 q⟩

instance : PyFloat Binary64 where
  add a b := ofRat (a.value + b.value)
  sub a b := ofRat (a.value - b.value)
  mul a b := ofRat (a.value * b.value)
  div a b := ofRat (a.value / b.value)
  neg a := ⟨-a.value⟩
  zero := ⟨0⟩
  one := ⟨1⟩
  lt a b := a.value < b.value
  le a b := a.value ≤ b.value
  beq a b := a.value == b.value
  decidableLT a b := inferInstanceAs (Decidable (a.value < b.value))
  decidableLE a b := inferInstanceAs (Decidable (a.value ≤ b.value))
  ofInt n := ofRat n
  isFinite _ := true
  trunc a := .ok (if 0 ≤ a.value then ⌊a.value⌋ else ⌈a.value⌉)
  floorDiv a b := if b.value = 0 then .error .zeroDivisionError else .ok ⌊a.value / b.value⌋
  round n a := ofRat (roundHalfEven (a.value * 10 ^ n) / 10 ^ n)
  quantizeFloor n a := .ok (ofRat (⌊a.value * 10 ^ n⌋ / 10 ^ n))
  quantizeHalfUp n a := .ok (ofRat (roundHalfUp (a.value * 10 ^ n) / 10 ^ n))
  text a := ratText a.value
  percentText a := toString (roundHalfEven (a.value * 100)) ++ "%"

instance : NextFloat Binary64 where
  nextUp a :=
    if a.value = 0 then ⟨powTwo (-1074)⟩
    else if 0 < a.value then ⟨a.value + unitInLastPlace a.value⟩
    else if powTwo (binaryExponent |a.value|) = |a.value| then
      ⟨a.value + unitInLastPlace (a.value / 2)⟩
    else ⟨a.value + unitInLastPlace a.value⟩

/-- The root to thirty places, then the nearest double. -/
instance : PySqrt Binary64 where
  sqrt a := ofRat ((Nat.sqrt ⌊a.value * 10 ^ 60⌋.toNat : ℚ) / 10 ^ 30)

end Binary64

instance [NextFloat K] : NextFloat (Flt K) where
  nextUp
    | .num x => .num (NextFloat.nextUp x)
    | .nan => .nan

end QuantAgent
