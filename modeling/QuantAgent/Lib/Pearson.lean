import Mathlib.Algebra.BigOperators.Field
import Mathlib.Algebra.Order.BigOperators.Ring.Finset
import Mathlib.Algebra.Order.Field.Basic
import Mathlib.Tactic

namespace QuantAgent
set_option autoImplicit true

section Moments
variable {ι K : Type*} [Field K] (s : Finset ι) (x y : ι → K)

def average : K := (∑ i ∈ s, x i) / s.card

/-- The sum of the products of the distances from the averages. -/
def coMoment : K := ∑ i ∈ s, (x i - average s x) * (y i - average s y)

theorem coMoment_eq [CharZero K] (h : s.Nonempty) :
    coMoment s x y = ∑ i ∈ s, x i * y i - (∑ i ∈ s, x i) * (∑ i ∈ s, y i) / s.card := by
  have hcard : (s.card : K) ≠ 0 := Nat.cast_ne_zero.mpr (Finset.card_ne_zero.mpr h)
  have hexpand : coMoment s x y = ∑ i ∈ s, x i * y i - (∑ i ∈ s, x i) * average s y -
      average s x * (∑ i ∈ s, y i) + s.card * (average s x * average s y) := by
    simp only [coMoment, sub_mul, mul_sub, Finset.sum_sub_distrib, ← Finset.mul_sum, ← Finset.sum_mul,
      Finset.sum_const, nsmul_eq_mul]
    ring
  rw [hexpand, average, average]
  field_simp
  ring

theorem coMoment_comm : coMoment s x y = coMoment s y x :=
  Finset.sum_congr rfl fun _ _ => mul_comm _ _

variable [LinearOrder K] [IsStrictOrderedRing K]

theorem coMoment_sq_le : coMoment s x y ^ 2 ≤ coMoment s x x * coMoment s y y := by
  have h := Finset.sum_mul_sq_le_sq_mul_sq s (fun i => x i - average s x) fun i => y i - average s y
  simpa only [coMoment, pow_two] using h

end Moments

section Correlation
variable {ι K : Type*} [Field K] [LinearOrder K] [IsStrictOrderedRing K] (sqrt : K → K) (s : Finset ι)
  (x y : ι → K)

/-- The correlation of two series over the same places. -/
def pearson : K := coMoment s x y / sqrt (coMoment s x x * coMoment s y y)

omit [LinearOrder K] [IsStrictOrderedRing K] in
theorem pearson_comm : pearson sqrt s x y = pearson sqrt s y x := by
  rw [pearson, pearson, coMoment_comm s x y, mul_comm (coMoment s x x)]

variable {sqrt s x y}

/-- A correlation is at most one in size. -/
theorem pearson_mem (hsqrt : ∀ a, 0 ≤ a → 0 ≤ sqrt a ∧ sqrt a * sqrt a = a)
    (hx : 0 < coMoment s x x) (hy : 0 < coMoment s y y) :
    -1 ≤ pearson sqrt s x y ∧ pearson sqrt s x y ≤ 1 := by
  obtain ⟨hnonneg, hsquare⟩ := hsqrt _ (mul_pos hx hy).le
  have hpos : 0 < sqrt (coMoment s x x * coMoment s y y) := by
    apply lt_of_le_of_ne hnonneg
    intro hzero
    rw [← hzero, mul_zero] at hsquare
    exact (mul_pos hx hy).ne hsquare
  have hbound : |coMoment s x y| ≤ sqrt (coMoment s x x * coMoment s y y) := by
    apply abs_le_of_sq_le_sq _ hnonneg
    rw [pow_two (sqrt _), hsquare]
    exact coMoment_sq_le s x y
  rw [← abs_le, pearson, abs_div, abs_of_pos hpos]
  exact (div_le_one hpos).mpr hbound

theorem average_mem {a b : K} (h : ∀ i ∈ s, a ≤ x i ∧ x i ≤ b) (hne : s.Nonempty) :
    a ≤ average s x ∧ average s x ≤ b := by
  have hcard : (0 : K) < s.card := Nat.cast_pos.mpr (Finset.card_pos.mpr hne)
  rw [average, le_div_iff₀ hcard, div_le_iff₀ hcard, mul_comm, mul_comm b, ← nsmul_eq_mul, ← nsmul_eq_mul]
  exact ⟨Finset.card_nsmul_le_sum s x a fun i hi => (h i hi).1,
    Finset.sum_le_card_nsmul s x b fun i hi => (h i hi).2⟩

end Correlation

end QuantAgent
