import QuantAgent.WalkForward.Benchmark
import QuantAgent.WalkForward.FoldSelection

namespace QuantAgent.WalkForward
open Features
set_option autoImplicit true

section Windows
variable {F : Type} [NumPy F]

/-- The sessions of the in-sample returns of a run with one equity for each session. -/
def inSampleSessions (rows : List (Row F)) : Except PyError (List String) := do
  let index ← splitIndex F ((rowDates rows).length - 1)
  return (rowDates rows).take (index + 1)

/-- The sessions the benchmark selection return is of. -/
def benchmarkSessions (rows : List (Row F)) : Except PyError (List String) := do
  let selectionDays ← splitIndex F (rowDates rows).length
  return rowDates (← selectionRows rows selectionDays)

/-- The sessions whose number annualises both returns. -/
def annualisedSessions (rows : List (Row F)) : Except PyError (List String) := do
  let selectionDays ← splitIndex F (rowDates rows).length
  return (rowDates rows).take selectionDays

/-- The cutoff of `_selection_signal_action_count`, if there is a session. -/
def signalCutoff (dates : List String) : Except PyError (Option String) := do
  if dates.isEmpty then return none
  let index ← PyFloat.trunc (lit dates.length * BACKTEST_SPLIT_FRACTION : F)
  dates[(max 0 (index - 1)).toNat]?.elim (.error .indexError) fun cutoff => .ok (some cutoff)

/-- The sessions whose buys count. -/
def buyCountSessions (rows : List (Row F)) : Except PyError (List String) := do
  let cutoff ← signalCutoff (F := F) (rowDates rows)
  return (rowDates rows).filter fun date => cutoff.any fun cutoff => date ≤ cutoff

/-- All parts of the objective score are of the same sessions. -/
def Aligned (rows : List (Row F)) : Prop :=
  ∃ window, inSampleSessions rows = .ok window ∧ benchmarkSessions rows = .ok window ∧
    buyCountSessions rows = .ok window ∧ annualisedSessions rows = .ok window

end Windows

/-- The in-sample returns of a run are those between the equities of these sessions. -/
theorem inSample_returns {rows : List (Row (Flt Binary64))} (curve : EquityCurve (rowDates rows)) :
    ∃ index, splitIndex (Flt Binary64) (nativeReturnsFromEquityCurve curve.values).length = .ok index ∧
      inSampleSessions rows = .ok ((rowDates rows).take (index + 1)) ∧
      (nativeReturnsFromEquityCurve curve.values).take index =
        nativeReturnsFromEquityCurve (curve.values.take (index + 1)) := by
  have hlength : (nativeReturnsFromEquityCurve curve.values).length = (rowDates rows).length - 1 := by
    rw [length_nativeReturns curve.nonzero, curve.length_values]
  refine ⟨_, splitIndex_eq _, ?_, take_nativeReturns curve.nonzero _⟩
  rw [hlength]
  simp only [inSampleSessions, splitIndex_eq, ok_bind]
  rfl

section Products

/-- Where seven tenths of `10 * k` fall short of `7 * k` by a unit in the last place. -/
def Undercut (k : ℕ) : Prop := 2 ^ k.log2 < k ∧ 7 * k < 2 ^ (k.log2 + 3)

instance (k : ℕ) : Decidable (Undercut k) := inferInstanceAs (Decidable (_ ∧ _))

theorem splitProduct_eq {n : ℕ} (hn : n ≤ 2 ^ 53) :
    splitProduct n = roundBinary64 (7 * n / 10 - n / (10 * 2 ^ 51)) := by
  have hdouble : IsDouble ((n : ℤ) : ℚ) := isDouble_intCast (by rw [Nat.abs_cast]; exact_mod_cast hn)
  have hround := hdouble.round_eq
  rw [Int.cast_natCast] at hround
  rw [splitProduct, hround, splitFraction_value]
  congr 1
  ring

/-- Away from the multiples of ten the product is not near an integer. -/
theorem floor_splitProduct {n : ℕ} (hn : n < 2 ^ 49) (hten : n % 10 ≠ 0) :
    ⌊splitProduct n⌋ = ((7 * n / 10 : ℕ) : ℤ) := by
  have hrest : 7 * n = 10 * (7 * n / 10) + 7 * n % 10 := (Nat.div_add_mod _ _).symm
  have hlow : 1 ≤ 7 * n % 10 := by omega
  have hhigh : 7 * n % 10 ≤ 9 := by omega
  have hone : 1 ≤ n := by omega
  rw [splitProduct_eq (by omega)]
  set k := 7 * n / 10
  set r := 7 * n % 10
  have hrest' : (7 : ℚ) * n = 10 * k + r := by exact_mod_cast hrest
  have hlow' : (1 : ℚ) ≤ r := by exact_mod_cast hlow
  have hhigh' : (r : ℚ) ≤ 9 := by exact_mod_cast hhigh
  have hone' : (1 : ℚ) ≤ n := by exact_mod_cast hone
  have hn' : (n : ℚ) < 2 ^ 49 := by exact_mod_cast hn
  have hnormal : (1 / 2 : ℚ) ≤ 7 * n / 10 - n / (10 * 2 ^ 51) := by linarith
  obtain ⟨hle, hge⟩ := roundBinary64_le (normal_of_le hnormal)
  have heps : (2 : ℚ) ^ (-53 : ℤ) = 1 / 9007199254740992 := by norm_num
  rw [heps] at hle hge
  rw [Int.floor_eq_iff]
  push_cast
  constructor
  · linarith
  · linarith

/-- A number a little below the integer `m`, counted in units of which `m` has a whole number. -/
theorem roundBinary64_below {m f : ℚ} {d : ℕ} {e : ℤ} (hle : (2 : ℚ) ^ e ≤ m - f) (hlt : m - f < 2 ^ (e + 1))
    (he : e - 52 = -d) (hd : d ≤ 52) :
    roundBinary64 (m - f) = roundHalfEven (m * 2 ^ d - f * 2 ^ d) / 2 ^ d := by
  have hpos : 0 < m - f := (zpow_pos two_pos _).trans_le hle
  have hunit : unitInLastPlace (m - f) = 1 / 2 ^ d := by
    rw [unitInLastPlace_of_exponent (e := e) (by rwa [abs_of_pos hpos]) (by rwa [abs_of_pos hpos])
      (by omega), he, zpow_neg, zpow_natCast, one_div]
  rw [roundBinary64_eq, hunit, div_div_eq_mul_div, div_one, sub_mul, mul_one_div]

theorem floor_splitProduct_ten {k : ℕ} (hk : 0 < k) (hn : 10 * k < 2 ^ 49) :
    ⌊splitProduct (10 * k)⌋ = 7 * k - if Undercut k then 1 else 0 := by
  have hproduct : splitProduct (10 * k) = roundBinary64 (7 * k - k / 2 ^ 51) := by
    rw [splitProduct_eq (by omega)]
    congr 1
    push_cast
    ring
  have hlow : 2 ^ k.log2 ≤ k := Nat.log2_self_le hk.ne'
  have hhigh : k < 2 ^ (k.log2 + 1) := Nat.lt_log2_self
  have hlog : k.log2 < 46 := by
    rw [← Nat.pow_lt_pow_iff_right (show 1 < 2 by decide)]
    omega
  have hundercut : Undercut k ↔ 2 ^ k.log2 < k ∧ 7 * k < 2 ^ (k.log2 + 3) := Iff.rfl
  rw [hproduct, if_congr hundercut rfl rfl]
  generalize k.log2 = l at *
  have hlow' : (2 : ℚ) ^ l ≤ k := by exact_mod_cast hlow
  have hhigh' : (k : ℚ) < 2 ^ l * 2 := by
    rw [← pow_succ]
    exact_mod_cast hhigh
  by_cases hshort : 7 * k < 2 ^ (l + 3)
  · obtain ⟨d, hd⟩ := Nat.exists_eq_add_of_le (show l ≤ 50 by omega)
    have hunits : (2 : ℚ) ^ l * 2 ^ d = 2 ^ 50 := by rw [← pow_add, ← hd]
    have hshort' : (7 : ℚ) * k < 2 ^ l * 8 := by
      have hcast : ((7 * k : ℕ) : ℚ) < ((2 ^ (l + 3) : ℕ) : ℚ) := by exact_mod_cast hshort
      push_cast at hcast
      rwa [pow_add, show (2 : ℚ) ^ 3 = 8 by norm_num] at hcast
    rw [roundBinary64_below (e := l + 2) (d := d) ?_ ?_ (by omega) (by omega)]
    · have hwhole : (7 : ℚ) * k * 2 ^ d = ((7 * k * 2 ^ d : ℤ) : ℚ) := by push_cast; rfl
      have hpos : (0 : ℚ) < 2 ^ d := by positivity
      rw [hwhole]
      by_cases hpow : 2 ^ l < k
      · -- More than half a unit is missing.
        have hpow' : (2 : ℚ) ^ l < k := by exact_mod_cast hpow
        have hmiss : (1 / 2 : ℚ) < k / 2 ^ 51 * 2 ^ d ∧ (k : ℚ) / 2 ^ 51 * 2 ^ d < 1 := by
          constructor <;> nlinarith
        rw [if_pos ⟨hpow, hshort⟩, roundHalfEven_eq (n := 7 * k * 2 ^ d - 1) (by
          push_cast
          rw [abs_lt]
          constructor <;> linarith), Int.floor_eq_iff]
        have hunit : (1 : ℚ) ≤ 2 ^ d := one_le_pow₀ one_le_two
        push_cast
        rw [sub_div, mul_div_cancel_right₀ _ hpos.ne']
        constructor
        · have := (div_le_one hpos).mpr hunit
          linarith
        · have := one_div_pos.mpr hpos
          linarith
      · -- Exactly half a unit is missing, and the tie goes to the even multiple.
        have hkl : (k : ℚ) = 2 ^ l := by exact_mod_cast le_antisymm (not_lt.mp hpow) hlow
        have hmiss : (k : ℚ) / 2 ^ 51 * 2 ^ d = 1 / 2 := by
          rw [hkl]
          linarith
        have heven : (7 * k * 2 ^ d : ℤ) % 2 = 0 := by
          obtain ⟨c, rfl⟩ := Nat.exists_eq_add_of_le' (show 1 ≤ d by omega)
          rw [pow_succ, ← mul_assoc, Int.mul_emod_left]
        have htie := (roundHalfEven_tie (q := ((7 * k * 2 ^ d : ℤ) : ℚ) - 1 / 2)
          (by rw [sub_sub_cancel]; norm_num)).mpr heven
        rw [hmiss, htie, if_neg fun h => hpow h.1]
        push_cast
        rw [mul_div_cancel_right₀ _ hpos.ne', sub_zero]
        exact_mod_cast Int.floor_intCast (R := ℚ) (7 * k)
    · rw [show ((l : ℤ) + 2) = ((l + 2 : ℕ) : ℤ) by push_cast; rfl, zpow_natCast, pow_add]
      linarith
    · rw [show ((l : ℤ) + 2 + 1) = ((l + 3 : ℕ) : ℤ) by push_cast; ring, zpow_natCast, pow_add]
      linarith
  · obtain ⟨d, hd⟩ := Nat.exists_eq_add_of_le (show l ≤ 49 by omega)
    have hunits : (2 : ℚ) ^ l * 2 ^ d = 2 ^ 49 := by rw [← pow_add, ← hd]
    have hlong' : (2 : ℚ) ^ l * 8 + 1 ≤ 7 * k := by
      have hne : 2 ^ (l + 3) ≠ 7 * k := by
        intro heq
        have hdvd : 7 ∣ 2 ^ (l + 3) := ⟨k, heq⟩
        exact absurd (Nat.Prime.dvd_of_dvd_pow (by decide) hdvd) (by decide)
      have hlt : 2 ^ (l + 3) + 1 ≤ 7 * k := by omega
      have hcast : ((2 ^ (l + 3) + 1 : ℕ) : ℚ) ≤ ((7 * k : ℕ) : ℚ) := by exact_mod_cast hlt
      push_cast at hcast
      rwa [pow_add, show (2 : ℚ) ^ 3 = 8 by norm_num] at hcast
    have hk' : (k : ℚ) < 2 ^ 49 := by exact_mod_cast (show k < 2 ^ 49 by omega)
    rw [roundBinary64_below (e := l + 3) (d := d) ?_ ?_ (by omega) (by omega), if_neg fun h => hshort h.2]
    · have hwhole : (7 : ℚ) * k * 2 ^ d = ((7 * k * 2 ^ d : ℤ) : ℚ) := by push_cast; rfl
      have hpos : (0 : ℚ) < 2 ^ d := by positivity
      have hmiss : (k : ℚ) / 2 ^ 51 * 2 ^ d < 1 / 2 ∧ 0 ≤ (k : ℚ) / 2 ^ 51 * 2 ^ d := by
        refine ⟨?_, by positivity⟩
        nlinarith
      rw [hwhole, roundHalfEven_eq (n := 7 * k * 2 ^ d) (by
        rw [abs_lt]
        constructor <;> linarith)]
      push_cast
      rw [mul_div_cancel_right₀ _ hpos.ne', sub_zero]
      exact_mod_cast Int.floor_intCast (R := ℚ) (7 * k)
    · rw [show ((l : ℤ) + 3) = ((l + 3 : ℕ) : ℤ) by push_cast; rfl, zpow_natCast, pow_add]
      linarith
    · rw [show ((l : ℤ) + 3 + 1) = ((l + 4 : ℕ) : ℤ) by push_cast; ring, zpow_natCast, pow_add]
      linarith

end Products

section Alignment

theorem splitFloor_eq {n : ℕ} (hn : n < 2 ^ 49) :
    splitFloor n = 7 * n / 10 - if n % 10 = 0 ∧ Undercut (n / 10) then 1 else 0 := by
  rw [splitFloor]
  by_cases hten : n % 10 = 0
  · obtain ⟨k, rfl⟩ := Nat.dvd_of_mod_eq_zero hten
    have hdiv : 7 * (10 * k) / 10 = 7 * k := by omega
    have hk : 10 * k / 10 = k := by omega
    rw [hdiv, hk]
    rcases Nat.eq_zero_or_pos k with rfl | hpos
    · rw [mul_zero, splitProduct_zero, Int.floor_zero]
      simp
    · rw [floor_splitProduct_ten hpos hn]
      by_cases hundercut : Undercut k
      · rw [if_pos hundercut, if_pos ⟨hten, hundercut⟩]
        omega
      · rw [if_neg hundercut, if_neg fun h => hundercut h.2]
        omega
  · rw [floor_splitProduct hn hten, if_neg fun h => hten h.1, Nat.sub_zero, Int.toNat_natCast]

/-- The counts of sessions for which one more session moves the cut by one. -/
def AlignedCount (n : ℕ) : Prop :=
  n ≤ 1 ∨ 3 ≤ n ∧
    if n < 2 ^ 49 then
      n % 10 ∈ [2, 3, 5, 6, 8, 9] ∨ n % 10 = 0 ∧ ¬Undercut (n / 10) ∨ n % 10 = 1 ∧ Undercut (n / 10)
    else splitFloor n = splitFloor (n - 1) + 1

theorem splitFloor_succ_iff {n : ℕ} (h3 : 3 ≤ n) (hn : n < 2 ^ 49) :
    splitFloor n = splitFloor (n - 1) + 1 ↔
      n % 10 ∈ [2, 3, 5, 6, 8, 9] ∨ n % 10 = 0 ∧ ¬Undercut (n / 10) ∨ n % 10 = 1 ∧ Undercut (n / 10) := by
  have hdigits : n % 10 ∈ [2, 3, 5, 6, 8, 9] ↔ n % 10 = 2 ∨ n % 10 = 3 ∨ n % 10 = 5 ∨ n % 10 = 6 ∨
      n % 10 = 8 ∨ n % 10 = 9 := by simp
  rw [splitFloor_eq hn, splitFloor_eq (show n - 1 < 2 ^ 49 by omega), hdigits]
  by_cases hzero : n % 10 = 0
  · rw [if_neg (show ¬((n - 1) % 10 = 0 ∧ _) by omega)]
    by_cases hundercut : Undercut (n / 10)
    · rw [if_pos ⟨hzero, hundercut⟩]
      simp only [hundercut, not_true, and_false, and_true, false_or]
      omega
    · rw [if_neg fun h => hundercut h.2]
      simp only [hundercut, not_false_iff, and_true, and_false, or_false]
      omega
  · rw [if_neg fun h => hzero h.1]
    by_cases hone : n % 10 = 1
    · have hk : (n - 1) / 10 = n / 10 := by omega
      rw [hk]
      by_cases hundercut : Undercut (n / 10)
      · rw [if_pos ⟨by omega, hundercut⟩]
        simp only [hundercut, not_true, and_false, and_true, false_or]
        omega
      · rw [if_neg fun h => hundercut h.2]
        simp only [hundercut, not_false_iff, and_true, and_false, or_false]
        omega
    · rw [if_neg (show ¬((n - 1) % 10 = 0 ∧ _) by omega)]
      simp only [hone, hzero, false_and, or_false]
      omega

theorem alignedCount_iff (n : ℕ) :
    min (max 1 (splitFloor (n - 1)) + 1) n = min (max 1 (splitFloor n)) n ↔ AlignedCount n := by
  obtain ⟨hhigh, hlow⟩ := splitFloor_bounds n
  obtain ⟨hhigh', hlow'⟩ := splitFloor_bounds (n - 1)
  rw [AlignedCount]
  by_cases h3 : 3 ≤ n
  · have hstep : (min (max 1 (splitFloor (n - 1)) + 1) n = min (max 1 (splitFloor n)) n) ↔
        splitFloor n = splitFloor (n - 1) + 1 := by omega
    rw [hstep]
    split
    · rename_i hn
      rw [splitFloor_succ_iff h3 hn]
      simp only [h3, true_and, show ¬n ≤ 1 by omega, false_or]
    · simp only [h3, true_and, show ¬n ≤ 1 by omega, false_or]
  · simp only [h3, false_and, or_false]
    omega

theorem benchmarkSessions_eq (rows : List (Row (Flt Binary64))) :
    benchmarkSessions rows =
      .ok ((rowDates rows).take (max 1 (splitFloor (rowDates rows).length))) := by
  simp only [benchmarkSessions, splitIndex_eq, ok_bind]
  by_cases hempty : rowDates rows = []
  · have hnil : rowDates ([] : List (Row (Flt Binary64))) = [] := rfl
    rw [rows_eq_nil hempty, hnil, List.take_nil]
    rfl
  · obtain ⟨k, hk⟩ := Nat.exists_eq_add_of_le' (le_max_left 1 (splitFloor (rowDates rows).length))
    have hlt : k < (rowDates rows).length := by
      have hpos := List.length_pos_iff.mpr hempty
      have hbounds := splitFloor_bounds (rowDates rows).length
      omega
    have hcutoff := List.getElem?_eq_getElem hlt
    rw [hk, selectionRows_ok hcutoff, ok_bind, rowDates_filter hcutoff]
    rfl

theorem buyCountSessions_eq (rows : List (Row (Flt Binary64))) :
    buyCountSessions rows =
      .ok ((rowDates rows).take (max 1 (splitFloor (rowDates rows).length))) := by
  by_cases hempty : rowDates rows = []
  · have hnil : rowDates ([] : List (Row (Flt Binary64))) = [] := rfl
    rw [rows_eq_nil hempty, hnil, List.take_nil]
    rfl
  · have hpos := List.length_pos_iff.mpr hempty
    have hbounds := splitFloor_bounds (rowDates rows).length
    have hindex : (max 0 ((splitFloor (rowDates rows).length : ℤ) - 1)).toNat =
        max 1 (splitFloor (rowDates rows).length) - 1 := by omega
    have hlt : max 1 (splitFloor (rowDates rows).length) - 1 < (rowDates rows).length := by omega
    have hcutoff := List.getElem?_eq_getElem hlt
    have hsome : signalCutoff (F := Flt Binary64) (rowDates rows) =
        .ok (rowDates rows)[max 1 (splitFloor (rowDates rows).length) - 1]? := by
      simp only [signalCutoff, List.isEmpty_eq_false_iff.mpr hempty, Bool.false_eq_true, if_false,
        trunc_split, ok_bind, hindex, hcutoff]
      rfl
    have hfilter := filter_le_eq_take (rowDates_pairwise rows) hcutoff
    rw [Nat.sub_add_cancel (le_max_left 1 _)] at hfilter
    simp only [buyCountSessions, hsome, ok_bind, hcutoff, Option.any_some, hfilter]
    rfl

/-- The windows are the same when the two cuts take the same sessions. -/
theorem aligned_iff_take (rows : List (Row (Flt Binary64))) :
    Aligned rows ↔
      (rowDates rows).take (max 1 (splitFloor ((rowDates rows).length - 1)) + 1) =
        (rowDates rows).take (max 1 (splitFloor (rowDates rows).length)) := by
  have hinSample : inSampleSessions rows =
      .ok ((rowDates rows).take (max 1 (splitFloor ((rowDates rows).length - 1)) + 1)) := by
    simp only [inSampleSessions, splitIndex_eq, ok_bind]
    rfl
  have hannualised : annualisedSessions rows =
      .ok ((rowDates rows).take (max 1 (splitFloor (rowDates rows).length))) := by
    simp only [annualisedSessions, splitIndex_eq, ok_bind]
    rfl
  constructor
  · rintro ⟨window, hwindow, hbenchmark, -, -⟩
    rw [hinSample] at hwindow
    rw [benchmarkSessions_eq] at hbenchmark
    exact Except.ok.inj (hwindow.trans hbenchmark.symm)
  · intro heq
    exact ⟨_, hinSample.trans (congrArg Except.ok heq), benchmarkSessions_eq rows,
      buyCountSessions_eq rows, hannualised⟩

/-- The windows of the objective score are the same exactly for these counts of sessions. -/
theorem windows_aligned_iff (rows : List (Row (Flt Binary64))) :
    Aligned rows ↔ AlignedCount (rowDates rows).length := by
  rw [aligned_iff_take, List.take_eq_take_iff]
  exact alignedCount_iff _

end Alignment

def fourCloses : List (Row (Flt Binary64)) :=
  ["2024-01-02", "2024-01-03", "2024-01-04", "2024-01-05"].map fun date => closeRow date 100

theorem fourCloses_dates : (rowDates fourCloses).length = 4 := by
  have hdates : fourCloses.map rowDate = ["2024-01-02", "2024-01-03", "2024-01-04", "2024-01-05"] := rfl
  rw [rowDates, length_sortedSet, hdates]
  decide

/-- Of four sessions the in-sample returns reach the third, and the benchmark ends with the second. -/
theorem four_sessions_misaligned : ¬∀ rows : List (Row (Flt Binary64)), Aligned rows := by
  intro h
  have htake := (aligned_iff_take fourCloses).mp (h fourCloses)
  rw [List.take_eq_take_iff, fourCloses_dates, alignedCount_iff] at htake
  rcases htake with hle | ⟨-, hcount⟩
  · exact absurd hle (by decide)
  · rw [if_pos (by decide)] at hcount
    exact absurd hcount (by decide)

end QuantAgent.WalkForward
