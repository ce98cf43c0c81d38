import Mathlib.Algebra.BigOperators.Group.List.Basic
import Mathlib.Algebra.Order.Field.Basic
import Mathlib.Tactic

namespace QuantAgent
set_option autoImplicit true

section Sums
variable [AddCommGroup M]

/-- `np.concatenate(([0], np.cumsum(xs)))` -/
def prefixSums (xs : List M) : List M := xs.scanl (· + ·) 0

theorem scanl_add_getElem? (xs : List M) (a : M) (h : i ≤ xs.length) :
    (xs.scanl (· + ·) a)[i]? = some (a + (xs.take i).sum) := by
  induction xs generalizing a i with
  | nil =>
    rw [Nat.le_zero.mp h]
    simp
  | cons x xs ih =>
    rw [List.scanl_cons]
    cases i with
    | zero => simp
    | succ i =>
      rw [List.getElem?_cons_succ, ih _ (Nat.le_of_succ_le_succ h), List.take_succ_cons, List.sum_cons,
        add_assoc]

theorem prefixSums_getD {xs : List M} (h : i ≤ xs.length) :
    (prefixSums xs).getD i 0 = (xs.take i).sum := by
  rw [prefixSums, List.getD_eq_getElem?_getD, scanl_add_getElem? xs 0 h, Option.getD_some, zero_add]

/-- The difference of two prefix sums is the sum between them. -/
theorem prefixSums_sub {xs : List M} (h : a + n ≤ xs.length) :
    (prefixSums xs).getD (a + n) 0 - (prefixSums xs).getD a 0 = ((xs.drop a).take n).sum := by
  have hsplit : xs.take (a + n) = xs.take a ++ (xs.drop a).take n := List.take_add
  rw [prefixSums_getD h, prefixSums_getD (by omega), hsplit, List.sum_append, add_sub_cancel_left]

end Sums

section Masked

/-- A stretch of a list, by its places. -/
theorem drop_take_eq_map (xs : List (Option α)) (h : a + n ≤ xs.length) :
    (xs.drop a).take n = (List.range' a n).map fun i => (xs[i]?).join := by
  apply List.ext_getElem?
  intro k
  rcases Nat.lt_or_ge k n with hk | hk
  · have hin : a + k < xs.length := by omega
    rw [List.getElem?_take_of_lt hk, List.getElem?_drop, List.getElem?_map, List.getElem?_range' hk,
      Option.map_some, Nat.one_mul, List.getElem?_eq_getElem hin, Option.join_some]
  · rw [List.getElem?_eq_none (by rw [List.length_take]; omega),
      List.getElem?_eq_none (by rw [List.length_map, List.length_range']; omega)]

/-- The entries that are there. -/
def presence (xs : List (Option α)) : List ℤ := xs.map fun x => if x.isSome then 1 else 0

theorem sum_presence (xs : List (Option α)) : (presence xs).sum = (xs.countP Option.isSome : ℕ) := by
  induction xs with
  | nil => rfl
  | cons x xs ih =>
    rw [presence, List.map_cons, List.sum_cons, List.countP_cons]
    rw [presence] at ih
    rw [ih]
    cases x <;> simp [add_comm]

/-- A stretch has as many entries as places when none is missing. -/
theorem presence_full {xs : List (Option α)} (h : a + n ≤ xs.length) :
    (prefixSums (presence xs)).getD (a + n) 0 - (prefixSums (presence xs)).getD a 0 = (n : ℤ) ↔
      ∀ i ∈ List.range' a n, ((xs[i]?).join).isSome := by
  have hlength : ((xs.drop a).take n).length = n := by
    rw [List.length_take, List.length_drop]
    omega
  have hpresence : ((presence xs).drop a).take n = presence ((xs.drop a).take n) := by
    rw [presence, presence, List.map_take, List.map_drop]
  rw [prefixSums_sub (by rwa [presence, List.length_map]), hpresence, sum_presence, Nat.cast_inj]
  conv_lhs => rw [← hlength, List.length_take, List.length_drop]
  rw [min_eq_left (by omega), drop_take_eq_map xs h, List.countP_map]
  constructor
  · intro hcount
    have hall := List.countP_eq_length.mp (hcount.trans (List.length_range' ..).symm)
    exact fun i hi => hall i hi
  · intro hall
    exact (List.countP_eq_length.mpr fun i hi => hall i hi).trans (List.length_range' ..)

theorem mapM_option (f : ι → Option α) (d : α) (l : List ι) :
    l.mapM f = if ∀ i ∈ l, (f i).isSome then some (l.map fun i => (f i).getD d) else none := by
  induction l with
  | nil => simp
  | cons i l ih =>
    rw [List.mapM_cons, ih]
    cases hi : f i with
    | none => simp [hi]
    | some x =>
      by_cases hall : ∀ j ∈ l, (f j).isSome
      · have hall' : ∀ j ∈ i :: l, (f j).isSome := List.forall_mem_cons.mpr ⟨by rw [hi]; rfl, hall⟩
        rw [if_pos hall, if_pos hall', List.map_cons, hi]
        rfl
      · have hall' : ¬∀ j ∈ i :: l, (f j).isSome := fun h => hall (List.forall_mem_cons.mp h).2
        rw [if_neg hall, if_neg hall']
        rfl

end Masked

section Variance
variable [Field K]

def mean (xs : List K) : K := xs.sum / xs.length

/-- The mean squared distance from the mean. -/
def populationVariance (xs : List K) : K :=
  mean (xs.map fun x => (x - mean xs) * (x - mean xs))

theorem sum_sq_sub (xs : List K) (m : K) :
    (xs.map fun x => (x - m) * (x - m)).sum =
      (xs.map fun x => x * x).sum - 2 * m * xs.sum + xs.length * (m * m) := by
  induction xs with
  | nil => simp
  | cons x xs ih =>
    rw [List.map_cons, List.sum_cons, ih, List.map_cons, List.sum_cons, List.sum_cons, List.length_cons]
    push_cast
    ring

/-- The mean of the squares less the square of the mean. -/
theorem populationVariance_eq [CharZero K] {xs : List K} (h : xs ≠ []) :
    populationVariance xs = mean (xs.map fun x => x * x) - mean xs * mean xs := by
  have hlength : (xs.length : K) ≠ 0 := Nat.cast_ne_zero.mpr (List.length_pos_iff.mpr h).ne'
  rw [populationVariance, mean, sum_sq_sub, List.length_map, mean, mean, List.length_map]
  field_simp
  ring

theorem populationVariance_nonneg [LinearOrder K] [IsStrictOrderedRing K] (xs : List K) :
    0 ≤ populationVariance xs := by
  rw [populationVariance, mean]
  apply div_nonneg
  · apply List.sum_nonneg
    intro y hy
    obtain ⟨x, _, rfl⟩ := List.mem_map.mp hy
    exact mul_self_nonneg _
  · exact Nat.cast_nonneg _

end Variance

end QuantAgent
