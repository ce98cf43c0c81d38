import QuantAgent.Lib.Binary64Rounding

namespace QuantAgent
set_option autoImplicit true

/-- Floats read as numbers, where a quotient keeps the order of its numerators. -/
class MonotoneFloat (F : Type) [PyFloat F] where
  value : F → ℚ
  value_injective : Function.Injective value
  lt_iff : ∀ a b : F, a < b ↔ value a < value b
  le_iff : ∀ a b : F, a ≤ b ↔ value a ≤ value b
  beq_iff : ∀ a b : F, (a == b) = true ↔ a = b
  value_zero : value 0 = 0
  value_one : value 1 = 1
  ofInt_mono : ∀ m n : ℤ, m ≤ n → value (PyFloat.ofInt m) ≤ value (PyFloat.ofInt n)
  ofInt_zero : (PyFloat.ofInt 0 : F) = 0
  ofInt_pos : ∀ n : ℤ, 0 < n → 0 < value (PyFloat.ofInt n)
  zero_div : ∀ c : F, 0 < value c → 0 / c = 0
  div_self : ∀ c : F, 0 < value c → c / c = 1
  div_mono : ∀ a b c : F, value a ≤ value b → 0 < value c → value (a / c) ≤ value (b / c)
  half_double : ∀ n : ℤ, 0 ≤ n → (PyFloat.ofInt (2 * n) / PyFloat.ofInt 2 : F) = PyFloat.ofInt n

instance : MonotoneFloat ℚ where
  value q := q
  value_injective := Function.injective_id
  lt_iff _ _ := Iff.rfl
  le_iff _ _ := Iff.rfl
  beq_iff _ _ := beq_iff_eq
  value_zero := rfl
  value_one := rfl
  ofInt_mono _ _ h := Int.cast_le.mpr h
  ofInt_zero := Int.cast_zero
  ofInt_pos _ h := Int.cast_pos.mpr h
  zero_div c _ := by
    change (0 : ℚ) / c = 0
    exact zero_div c
  div_self c h := div_self (ne_of_gt h)
  div_mono _ _ _ h hc := div_le_div_of_nonneg_right h (le_of_lt hc)
  half_double n _ := by
    change ((2 * n : ℤ) : ℚ) / ((2 : ℤ) : ℚ) = n
    push_cast
    exact mul_div_cancel_left₀ _ two_ne_zero

/-- Rounding to the nearest double keeps the order. -/
theorem roundBinary64_mono {q r : ℚ} (h : q ≤ r) : roundBinary64 q ≤ roundBinary64 r := by
  by_contra hlt
  rw [not_le] at hlt
  have hq := roundBinary64_nearest q (isDouble_roundBinary64 r)
  have hr := roundBinary64_nearest r (isDouble_roundBinary64 q)
  have hsame : q = r := by
    apply le_antisymm h
    rcases abs_cases (roundBinary64 q - q) with ⟨h₁, _⟩ | ⟨h₁, _⟩ <;>
      rcases abs_cases (roundBinary64 r - q) with ⟨h₂, _⟩ | ⟨h₂, _⟩ <;>
      rcases abs_cases (roundBinary64 r - r) with ⟨h₃, _⟩ | ⟨h₃, _⟩ <;>
      rcases abs_cases (roundBinary64 q - r) with ⟨h₄, _⟩ | ⟨h₄, _⟩ <;>
      linarith
  rw [hsame] at hlt
  exact lt_irrefl _ hlt

/-- A number of at least one and its double are rounded alike. -/
theorem roundBinary64_double {q : ℚ} (hq : 1 ≤ q) : roundBinary64 (2 * q) = 2 * roundBinary64 q := by
  have hpos : 0 < q := lt_of_lt_of_le one_pos hq
  have habs : |q| = q := abs_of_pos hpos
  have habs' : |2 * q| = 2 * q := abs_of_pos (by linarith)
  obtain ⟨hle, hlt⟩ := binaryExponent_spec hpos
  have hstep : ∀ e : ℤ, (2 : ℚ) ^ (e + 1) = 2 * 2 ^ e := by
    intro e
    rw [zpow_add_one₀ two_ne_zero, mul_comm]
  have hexponent : binaryExponent (2 * q) = binaryExponent q + 1 := by
    apply binaryExponent_eq
    · rw [hstep]
      linarith
    · rw [hstep]
      linarith
  have hnormal : -1022 < binaryExponent q := by
    by_contra hlow
    have hsmall : (2 : ℚ) ^ (binaryExponent q + 1) ≤ 2 ^ (0 : ℤ) :=
      zpow_le_zpow_right₀ one_le_two (by omega)
    rw [zpow_zero] at hsmall
    linarith
  have hunit : unitInLastPlace (2 * q) = 2 * unitInLastPlace q := by
    rw [unitInLastPlace_eq, unitInLastPlace_eq, habs, habs', hexponent, max_eq_left (by omega),
      max_eq_left (by omega), ← hstep]
    congr 1
    ring
  have hquotient : 2 * q / (2 * unitInLastPlace q) = q / unitInLastPlace q :=
    mul_div_mul_left _ _ two_ne_zero
  rw [roundBinary64_eq, roundBinary64_eq, hunit, hquotient]
  ring

namespace Binary64

theorem value_ofInt_two : (PyFloat.ofInt 2 : Binary64) = ⟨2⟩ :=
  ofRat_intCast (n := 2) (by norm_num)

instance : MonotoneFloat Binary64 where
  value := Binary64.value
  value_injective a b h := by
    cases a
    cases b
    exact congrArg Binary64.mk h
  lt_iff _ _ := Iff.rfl
  le_iff _ _ := Iff.rfl
  beq_iff a b := by
    change (a.value == b.value) = true ↔ a = b
    rw [beq_iff_eq]
    constructor
    · intro h
      cases a
      cases b
      exact congrArg Binary64.mk h
    · exact congrArg _
  value_zero := rfl
  value_one := rfl
  ofInt_mono m n h := roundBinary64_mono (Int.cast_le.mpr h)
  ofInt_zero := ofRat_intCast (n := 0) (by norm_num)
  ofInt_pos n h := by
    have hone : roundBinary64 1 ≤ roundBinary64 n :=
      roundBinary64_mono (by exact_mod_cast Int.add_one_le_iff.mpr h)
    rw [roundBinary64_one] at hone
    exact lt_of_lt_of_le one_pos hone
  zero_div c _ := by
    change ofRat (0 / c.value) = ⟨0⟩
    rw [zero_div, ofRat, isDouble_zero.round_eq]
  div_self c h := by
    change ofRat (c.value / c.value) = ⟨1⟩
    rw [div_self h.ne', ofRat, roundBinary64_one]
  div_mono a b c h hc := roundBinary64_mono (div_le_div_of_nonneg_right h hc.le)
  half_double n h := by
    have hhalf : roundBinary64 ((2 * n : ℤ) : ℚ) / 2 = roundBinary64 n := by
      rcases h.eq_or_lt with rfl | hpos
      · simp [isDouble_zero.round_eq]
      · push_cast
        rw [roundBinary64_double (by exact_mod_cast Int.add_one_le_iff.mpr hpos)]
        exact mul_div_cancel_left₀ _ two_ne_zero
    rw [value_ofInt_two]
    change ofRat (roundBinary64 ((2 * n : ℤ) : ℚ) / 2) = ofRat n
    rw [hhalf, ofRat, ofRat, (isDouble_roundBinary64 n).round_eq]

end Binary64

end QuantAgent
