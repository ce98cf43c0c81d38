import QuantAgent.Lib.NumPy
import Mathlib.Order.Bounds.Basic

namespace QuantAgent
set_option autoImplicit true

section
variable [PySqrt ℚ]

theorem isNaN_num (x : ℚ) : isNaN (Flt.num x) = false := by
  change (!(x == x)) = false
  simp

theorem npMaximum_num (x y : ℚ) : npMaximum (Flt.num x) (Flt.num y) = .num (max x y) := by
  have hlt : (Flt.num x < Flt.num y) ↔ x < y := Iff.rfl
  rw [npMaximum, isNaN_num, isNaN_num, max_def_lt]
  simp only [Bool.false_eq_true, if_false, hlt]
  exact (apply_ite Flt.num (x < y) y x).symm

theorem npMinimum_num (x y : ℚ) : npMinimum (Flt.num x) (Flt.num y) = .num (min x y) := by
  have hlt : (Flt.num y < Flt.num x) ↔ y < x := Iff.rfl
  rw [npMinimum, isNaN_num, isNaN_num, min_comm, min_def_lt]
  simp only [Bool.false_eq_true, if_false, hlt]
  exact (apply_ite Flt.num (y < x) y x).symm

theorem pyMax_num (x y : ℚ) : pyMax (Flt.num x) (Flt.num y) = .num (max x y) := by
  have hlt : (Flt.num x < Flt.num y) ↔ x < y := Iff.rfl
  rw [pyMax, max_def_lt]
  simp only [hlt]
  exact (apply_ite Flt.num (x < y) y x).symm

theorem pyMin_num (x y : ℚ) : pyMin (Flt.num x) (Flt.num y) = .num (min x y) := by
  have hlt : (Flt.num y < Flt.num x) ↔ y < x := Iff.rfl
  rw [pyMin, min_comm, min_def_lt]
  simp only [hlt]
  exact (apply_ite Flt.num (y < x) y x).symm

theorem num_div (x : ℚ) {y : ℚ} (hy : y ≠ 0) : (Flt.num x / Flt.num y : Flt ℚ) = .num (x / y) := by
  change (if (y == 0) = true then Flt.nan else Flt.num (x / y)) = _
  simp [hy]

theorem num_bne_zero {y : ℚ} (hy : y ≠ 0) : ((Flt.num y : Flt ℚ) != 0) = true := by
  change (!(y == 0)) = true
  simp [hy]

theorem foldl_npMaximum_num (x : ℚ) (xs : List ℚ) :
    (xs.map Flt.num).foldl npMaximum (.num x) = .num (xs.foldl max x) := by
  induction xs generalizing x with
  | nil => rfl
  | cons y xs ih => rw [List.map_cons, List.foldl_cons, npMaximum_num, ih, List.foldl_cons]

theorem foldl_npMinimum_num (x : ℚ) (xs : List ℚ) :
    (xs.map Flt.num).foldl npMinimum (.num x) = .num (xs.foldl min x) := by
  induction xs generalizing x with
  | nil => rfl
  | cons y xs ih => rw [List.map_cons, List.foldl_cons, npMinimum_num, ih, List.foldl_cons]

end

section
variable [LinearOrder α]

theorem isGreatest_foldl_max (x : α) (xs : List α) : IsGreatest {a | a ∈ x :: xs} (xs.foldl max x) := by
  induction xs using List.reverseRecOn with
  | nil =>
    constructor
    · exact List.mem_singleton_self x
    · intro a ha
      exact (List.mem_singleton.mp ha).le
  | append_singleton xs y ih =>
    have hunion : {a | a ∈ x :: (xs ++ [y])} = {a | a ∈ x :: xs} ∪ {y} := by
      ext a
      simp only [Set.mem_ofPred_eq, Set.mem_union, Set.mem_singleton_iff, List.mem_cons, List.mem_append,
        List.not_mem_nil, or_false, or_assoc]
    rw [hunion, List.foldl_append]
    exact ih.union isGreatest_singleton

theorem isLeast_foldl_min (x : α) (xs : List α) : IsLeast {a | a ∈ x :: xs} (xs.foldl min x) :=
  isGreatest_foldl_max (α := αᵒᵈ) x xs

end

end QuantAgent
