import QuantAgent.Lib.Binary64Rounding
import QuantAgent.Lib.Trace

namespace QuantAgent.WalkForward
set_option autoImplicit true

def METRIC_ROUND_DIGITS : ℕ := 6

def MIN_RETURNS_FOR_SPLIT : ℕ := 4

section
variable {F : Type} [NumPy F]

def BACKTEST_SPLIT_FRACTION : F := decimal 7 1

variable (F) in
/-- `max(1, int(n * BACKTEST_SPLIT_FRACTION))` -/
def splitIndex (n : ℕ) : Except PyError ℕ := do
  let index ← PyFloat.trunc (lit n * BACKTEST_SPLIT_FRACTION : F)
  return (max 1 index).toNat

def nativeReturnsFromEquityCurve (values : List F) : List F :=
  (values.zip values.tail).filterMap fun (previous, current) =>
    if previous != 0 then some (current / previous - 1) else none

def nativeSharpeLike (dailyReturns : List F) : F :=
  if dailyReturns.length < 2 then 0
  else
    let meanReturn := pySum dailyReturns / lit dailyReturns.length
    let variance := pySum (dailyReturns.map fun value => (value - meanReturn) * (value - meanReturn)) /
      lit (dailyReturns.length - 1)
    if variance ≤ 0 then 0 else meanReturn / NumPy.sqrt variance * NumPy.sqrt (lit 252)

def compoundReturns (dailyReturns : List F) : F :=
  (dailyReturns.map fun dailyReturn => 1 + dailyReturn).foldl (· * ·) 1 - 1

def maxDrawdownFromReturns (dailyReturns : List F) : F :=
  (dailyReturns.foldl (fun (equity, peak, maxDrawdown) dailyReturn =>
    let equity := equity * (1 + dailyReturn)
    let peak := pyMax peak equity
    (equity, peak, if 0 < peak then pyMin maxDrawdown (equity / peak - 1) else maxDrawdown))
    ((1, 1, 0) : F × F × F)).2.2

/-- `_candidate_rank`, in the order of its comparison. -/
structure CandidateRank (F : Type) where
  inSampleSharpe : F
  inSampleReturn : F
  inSampleMaxDrawdown : F

/-- The metrics a rank is made of, for one stretch of returns. -/
def rankOf (sharpeReturns returns : List F) : CandidateRank F where
  inSampleSharpe := PyFloat.round METRIC_ROUND_DIGITS (nativeSharpeLike sharpeReturns)
  inSampleReturn := PyFloat.round METRIC_ROUND_DIGITS (compoundReturns returns)
  inSampleMaxDrawdown := PyFloat.round METRIC_ROUND_DIGITS (maxDrawdownFromReturns returns)

/-- The rank of a candidate by `_metrics_from_engine_result` of a run in selection mode. -/
def candidateRank (equityCurve : List F) : Except PyError (CandidateRank F) := do
  let dailyReturns := nativeReturnsFromEquityCurve equityCurve
  let index ← splitIndex F dailyReturns.length
  let inSampleReturns := dailyReturns.take index
  return rankOf (if dailyReturns.length < MIN_RETURNS_FOR_SPLIT then dailyReturns else inSampleReturns)
    inSampleReturns

end

section Doubles

/-- The double nearest to 0.7. -/
def splitFraction : ℚ := roundBinary64 (7 / 10)

/-- `n * 0.7` -/
def splitProduct (n : ℕ) : ℚ := roundBinary64 (roundBinary64 n * splitFraction)

theorem lit_eq (n : ℕ) : (lit n : Flt Binary64) = .num ⟨roundBinary64 n⟩ := rfl

theorem lit_eq_self {n : ℕ} (hn : n ≤ 2 ^ 53) : (lit n : Flt Binary64) = .num ⟨n⟩ := by
  have hdouble : IsDouble ((n : ℤ) : ℚ) := isDouble_intCast (by rw [Nat.abs_cast]; exact_mod_cast hn)
  have hround := hdouble.round_eq
  rw [Int.cast_natCast] at hround
  rw [lit_eq, hround]

theorem split_fraction_eq : (BACKTEST_SPLIT_FRACTION : Flt Binary64) = .num ⟨splitFraction⟩ := by
  rw [BACKTEST_SPLIT_FRACTION, decimal, lit_eq_self (by decide), lit_eq_self (by decide)]
  have hten : ((⟨((10 ^ 1 : ℕ) : ℚ)⟩ : Binary64) == 0) = false := by decide
  change (if (⟨((10 ^ 1 : ℕ) : ℚ)⟩ : Binary64) == 0 then Flt.nan
    else .num (Binary64.ofRat (((7 : ℕ) : ℚ) / ((10 ^ 1 : ℕ) : ℚ)))) = _
  rw [hten, splitFraction, Binary64.ofRat]
  norm_num

theorem splitFraction_value : splitFraction = 6305039478318694 / 2 ^ 53 := by
  have hunit : unitInLastPlace (7 / 10) = 2 ^ (-53 : ℤ) := by
    have habs : |(7 / 10 : ℚ)| = 7 / 10 := abs_of_pos (by norm_num)
    exact unitInLastPlace_of_exponent (e := -1) (by rw [habs]; norm_num) (by rw [habs]; norm_num)
      (by decide)
  have hround : roundHalfEven (7 / 10 / 2 ^ (-53 : ℤ)) = 6305039478318694 :=
    roundHalfEven_eq (by norm_num [abs_lt])
  rw [splitFraction, roundBinary64_eq, hunit, hround]
  norm_num

/-- Rounding moves a normal number by at most a part in `2 ^ 53`. -/
theorem roundBinary64_le {q : ℚ} (hq : (2 : ℚ) ^ (-1022 : ℤ) ≤ q) :
    q * (1 - 2 ^ (-53 : ℤ)) ≤ roundBinary64 q ∧ roundBinary64 q ≤ q * (1 + 2 ^ (-53 : ℤ)) := by
  have hpos : 0 < q := lt_of_lt_of_le (zpow_pos two_pos _) hq
  have hunit := unitInLastPlace_le (show (2 : ℚ) ^ (-1022 : ℤ) ≤ |q| by rwa [abs_of_pos hpos])
  have hnear := abs_le.mp (abs_roundBinary64_sub_le q)
  rw [abs_of_pos hpos] at hunit
  have hsplit : (2 : ℚ) ^ (-52 : ℤ) = 2 * 2 ^ (-53 : ℤ) := by norm_num
  rw [hsplit] at hunit
  constructor <;> linarith

theorem normal_of_le {q : ℚ} (hq : 1 / 2 ≤ q) : (2 : ℚ) ^ (-1022 : ℤ) ≤ q := by
  refine le_trans ?_ hq
  rw [show (1 / 2 : ℚ) = 2 ^ (-1 : ℤ) by norm_num]
  exact zpow_le_zpow_right₀ one_le_two (by decide)

theorem splitProduct_zero : splitProduct 0 = 0 := by
  have hzero := isDouble_zero.round_eq
  rw [splitProduct, Nat.cast_zero, hzero, zero_mul, hzero]

theorem splitProduct_bounds {n : ℕ} (hn : 1 ≤ n) :
    (n : ℚ) / 2 < splitProduct n ∧ splitProduct n < 3 / 4 * n := by
  have hn' : (1 : ℚ) ≤ n := by exact_mod_cast hn
  obtain ⟨hlow, hhigh⟩ := roundBinary64_le (normal_of_le (show (1 / 2 : ℚ) ≤ n by linarith))
  have heps : (2 : ℚ) ^ (-53 : ℤ) = 1 / 9007199254740992 := by norm_num
  have hfraction := splitFraction_value
  have hhalf : (1 / 2 : ℚ) ≤ roundBinary64 n * splitFraction := by
    rw [hfraction]
    rw [heps] at hlow
    linarith
  obtain ⟨hplow, hphigh⟩ := roundBinary64_le (normal_of_le hhalf)
  rw [heps] at hplow hphigh hhigh hlow
  rw [splitProduct]
  rw [hfraction] at hplow hphigh ⊢
  constructor <;> linarith

/-- `int(n * 0.7)` -/
def splitFloor (n : ℕ) : ℕ := ⌊splitProduct n⌋.toNat

theorem trunc_split (n : ℕ) :
    PyFloat.trunc (lit n * BACKTEST_SPLIT_FRACTION : Flt Binary64) = .ok (splitFloor n : ℤ) := by
  have hnonneg : 0 ≤ splitProduct n := by
    rcases Nat.eq_zero_or_pos n with rfl | hn
    · exact splitProduct_zero.ge
    · have hhalf : (0 : ℚ) ≤ (n : ℚ) / 2 := by positivity
      exact hhalf.trans (splitProduct_bounds hn).1.le
  have htrunc : PyFloat.trunc (lit n * BACKTEST_SPLIT_FRACTION : Flt Binary64) =
      .ok (if 0 ≤ splitProduct n then ⌊splitProduct n⌋ else ⌈splitProduct n⌉) := by
    rw [split_fraction_eq]
    rfl
  rw [htrunc, if_pos hnonneg, splitFloor, Int.toNat_of_nonneg (Int.floor_nonneg.mpr hnonneg)]

theorem splitIndex_eq (n : ℕ) : splitIndex (Flt Binary64) n = .ok (max 1 (splitFloor n)) := by
  simp only [splitIndex, trunc_split, ok_bind]
  refine congrArg Except.ok ?_
  omega

/-- The cut leaves a quarter out, and keeps half. -/
theorem splitFloor_bounds (n : ℕ) : 4 * splitFloor n ≤ 3 * n ∧ n ≤ 2 * splitFloor n + 1 := by
  rcases Nat.eq_zero_or_pos n with rfl | hn
  · rw [splitFloor, splitProduct_zero, Int.floor_zero]
    decide
  obtain ⟨hlow, hhigh⟩ := splitProduct_bounds hn
  have hnonneg : 0 ≤ ⌊splitProduct n⌋ := Int.floor_nonneg.mpr (by
    have hhalf : (0 : ℚ) ≤ (n : ℚ) / 2 := by positivity
    linarith)
  have hle := Int.floor_le (splitProduct n)
  have hlt := Int.lt_floor_add_one (splitProduct n)
  have hfloor : (4 * ⌊splitProduct n⌋ : ℚ) < 3 * n := by linarith
  have hkept : (n : ℚ) < 2 * ⌊splitProduct n⌋ + 2 := by linarith
  have hfloor' : 4 * ⌊splitProduct n⌋ < 3 * n := by exact_mod_cast hfloor
  have hkept' : (n : ℤ) < 2 * ⌊splitProduct n⌋ + 2 := by exact_mod_cast hkept
  unfold splitFloor
  omega

theorem splitIndex_le (n : ℕ) :
    ∃ index, splitIndex (Flt Binary64) n = .ok index ∧ 1 ≤ index ∧ (index = 1 ∨ 4 * index ≤ 3 * n) := by
  have hbounds := splitFloor_bounds n
  refine ⟨_, splitIndex_eq n, ?_⟩
  omega

end Doubles
end QuantAgent.WalkForward
