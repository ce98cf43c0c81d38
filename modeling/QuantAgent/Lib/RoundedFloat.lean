import QuantAgent.Lib.MonotoneFloat

namespace QuantAgent
set_option autoImplicit true

/-- What a number format makes of an exact result. -/
structure Rounding where
  round : ℚ → ℚ
  mono : Monotone round
  idem : ∀ q, round (round q) = round q
  zero : round 0 = 0

namespace Rounding

/-- Every rational is kept. -/
def exact : Rounding where
  round q := q
  mono := monotone_id
  idem _ := rfl
  zero := rfl

def binary64 : Rounding where
  round := roundBinary64
  mono _ _ h := roundBinary64_mono h
  idem q := (isDouble_roundBinary64 q).round_eq
  zero := isDouble_zero.round_eq

end Rounding

/-- The numbers of a format. -/
structure Rounded (r : Rounding) where
  value : ℚ
  fixed : r.round value = value

namespace Rounded
variable {r : Rounding} {a b c s low high x : Rounded r}

theorem value_injective : Function.Injective (value : Rounded r → ℚ) := by
  intro a b h
  cases a
  cases b
  cases h
  rfl

instance : LinearOrder (Rounded r) := LinearOrder.lift' value value_injective

def ofRat (r : Rounding) (q : ℚ) : Rounded r := ⟨r.round q, r.idem q⟩

instance : Zero (Rounded r) := ⟨⟨0, r.zero⟩⟩
instance : Add (Rounded r) := ⟨fun a b => ofRat r (a.value + b.value)⟩
instance : Sub (Rounded r) := ⟨fun a b => ofRat r (a.value - b.value)⟩
instance : Mul (Rounded r) := ⟨fun a b => ofRat r (a.value * b.value)⟩
instance : Div (Rounded r) := ⟨fun a b => ofRat r (a.value / b.value)⟩

/-- `abs(x)` -/
def abs (x : Rounded r) : Rounded r := ofRat r |x.value|

theorem ofRat_mono {p q : ℚ} (h : p ≤ q) : ofRat r p ≤ ofRat r q := r.mono h

theorem ofRat_value (a : Rounded r) : ofRat r a.value = a := value_injective a.fixed

theorem ofRat_le {q : ℚ} (h : q ≤ a.value) : ofRat r q ≤ a := by
  have hround : ofRat r q ≤ ofRat r a.value := ofRat_mono h
  rwa [ofRat_value] at hround

theorem le_ofRat {q : ℚ} (h : a.value ≤ q) : a ≤ ofRat r q := by
  have hround : ofRat r a.value ≤ ofRat r q := ofRat_mono h
  rwa [ofRat_value] at hround

theorem ofRat_nonneg {q : ℚ} (h : 0 ≤ q) : 0 ≤ ofRat r q := le_ofRat h

theorem sub_le (h : 0 ≤ s) : a - s ≤ a := ofRat_le (sub_le_self _ h)

theorem le_add (h : 0 ≤ s) : a ≤ a + s := le_ofRat (le_add_of_nonneg_right h)

theorem mul_nonneg (ha : 0 ≤ a) (hb : 0 ≤ b) : 0 ≤ a * b := ofRat_nonneg (Left.mul_nonneg ha hb)

theorem mul_le_mul_left (h : b ≤ c) (ha : 0 ≤ a) : a * b ≤ a * c :=
  ofRat_mono (mul_le_mul_of_nonneg_left h ha)

/-- `max(low, min(high, x))` -/
def clamped (x low high : Rounded r) : Rounded r := max low (min high x)

theorem low_le_clamped : low ≤ clamped x low high := le_max_left _ _

theorem clamped_le_high (h : low ≤ high) : clamped x low high ≤ high :=
  max_le h (min_le_left _ _)

/-- Lowering a number that is not below the range lowers the clamped one. -/
theorem clamped_sub_le (h : low ≤ a) (hs : 0 ≤ s) : clamped (a - s) low high ≤ a :=
  max_le h (le_trans (min_le_right _ _) (sub_le hs))

theorem le_clamped_add (h : a ≤ high) (hs : 0 ≤ s) : a ≤ clamped (a + s) low high :=
  le_trans (le_min h (le_add hs)) (le_max_right _ _)

end Rounded

end QuantAgent
