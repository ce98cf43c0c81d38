import QuantAgent.Risk.PortfolioRisk
import QuantAgent.Lib.Pearson
import Mathlib.Algebra.BigOperators.Group.Finset.Basic
import Mathlib.Analysis.Real.Sqrt

namespace QuantAgent.Risk
set_option autoImplicit true

section Spec
variable {K : Type} [Field K] [LinearOrder K]

/-- The point of a row of one ticker. -/
def tickerPoint (ticker : String) (row : PriceRow K) : Option (String × K) :=
  if rowTicker row = ticker then
    match row.close, row.date with
    | some close, some date => some (date, close)
    | _, _ => none
  else none

/-- The daily returns of one ticker. -/
def returnsOf (priceRows : List (PriceRow K)) (ticker : String) : Dict String K :=
  dailyReturns (pySorted pointBefore (priceRows.filterMap (tickerPoint ticker)))

def valueAt (series : Dict String K) (date : String) : K := (series.get? date).getD 0

/-- The dates on which both series have a return. -/
def commonDates (x y : Dict String K) : Finset String := x.keys.toFinset ∩ y.keys.toFinset

/-- Two series with two common dates, on which both vary. -/
def Comparable (x y : Dict String K) : Prop :=
  2 ≤ (commonDates x y).card ∧ 0 < coMoment (commonDates x y) (valueAt x) (valueAt x) ∧
    0 < coMoment (commonDates x y) (valueAt y) (valueAt y)

instance (x y : Dict String K) : Decidable (Comparable x y) := inferInstanceAs (Decidable (_ ∧ _))

/-- The correlation of two series on their common dates. -/
def correlationOf (sqrt : K → K) (x y : Dict String K) : K :=
  pearson sqrt (commonDates x y) (valueAt x) (valueAt y)

/-- The unordered pairs of tickers that can be compared, the smaller ticker first. -/
def comparablePairs (tickers : List String) (priceRows : List (PriceRow K)) : Finset (String × String) :=
  (tickers.toFinset ×ˢ tickers.toFinset).filter fun p =>
    p.1 < p.2 ∧ Comparable (returnsOf priceRows p.1) (returnsOf priceRows p.2)

omit [Field K] [LinearOrder K] in
theorem commonDates_comm (x y : Dict String K) : commonDates x y = commonDates y x := Finset.inter_comm _ _

theorem comparable_comm (x y : Dict String K) : Comparable x y ↔ Comparable y x := by
  rw [Comparable, Comparable, commonDates_comm x y]
  tauto

omit [LinearOrder K] in
theorem correlationOf_comm (sqrt : K → K) (x y : Dict String K) :
    correlationOf sqrt x y = correlationOf sqrt y x := by
  rw [correlationOf, correlationOf, commonDates_comm x y, pearson_comm]

omit [Field K] [LinearOrder K] in
theorem mem_commonDates {x y : Dict String K} {date : String} :
    date ∈ commonDates x y ↔ date ∈ x ∧ date ∈ y := by
  rw [commonDates, Finset.mem_inter, List.mem_toFinset, List.mem_toFinset]
  rfl

end Spec

section Returns
variable {K : Type} [Field K] [LinearOrder K] {tickers : List String} {priceRows : List (PriceRow K)}

omit [Field K] [LinearOrder K] in
theorem filterMap_pricePoint (priceRows : List (PriceRow K)) {ticker : String} (h : ticker ∈ tickers) :
    ((priceRows.filterMap (pricePoint tickers)).filter fun e => decide (e.1 = ticker)).map Prod.snd =
      priceRows.filterMap (tickerPoint ticker) := by
  rw [List.filter_filterMap, List.map_filterMap]
  apply List.filterMap_congr
  intro row _
  rw [pricePoint, tickerPoint]
  by_cases hticker : rowTicker row = ticker
  · rw [hticker, if_pos h, if_pos rfl]
    cases row.close <;> cases row.date <;> simp
  · rw [if_neg hticker]
    split
    · cases row.close <;> cases row.date <;> simp [hticker]
    · rfl

omit [Field K] [LinearOrder K] in
theorem foldl_points (points : List (String × K)) (entries : List (String × String × K)) :
    entries.foldl (fun points entry => points ++ [entry.2]) points = points ++ entries.map Prod.snd := by
  induction entries generalizing points with
  | nil => rw [List.foldl_nil, List.map_nil, List.append_nil]
  | cons entry entries ih =>
    rw [List.foldl_cons, ih, List.map_cons, List.append_assoc, List.singleton_append]

omit [Field K] [LinearOrder K] in
theorem mem_pricePoint {entry : String × String × K}
    (h : entry ∈ priceRows.filterMap (pricePoint tickers)) : entry.1 ∈ tickers := by
  obtain ⟨row, _, hrow⟩ := List.mem_filterMap.mp h
  rw [pricePoint] at hrow
  split at hrow
  · rename_i hticker
    cases hclose : row.close <;> cases hdate : row.date <;> rw [hclose, hdate] at hrow <;> cases hrow
    exact hticker
  · cases hrow

omit [Field K] [LinearOrder K] in
/-- The series of a ticker asked for, which has no entry when no row does. -/
theorem priceSeries_get? (priceRows : List (PriceRow K)) {ticker : String} (h : ticker ∈ tickers) :
    (priceSeries tickers priceRows).get? ticker =
      if priceRows.filterMap (tickerPoint ticker) = [] then none
      else some (priceRows.filterMap (tickerPoint ticker)) := by
  have hpoints := filterMap_pricePoint priceRows h
  rw [priceSeries, Dict.get?_group, foldl_points, List.nil_append, hpoints, ← hpoints]
  simp only [List.map_eq_nil_iff]

omit [Field K] [LinearOrder K] in
theorem priceSeries_mem {ticker : String} {points : List (String × K)}
    (h : (priceSeries tickers priceRows).get? ticker = some points) : ticker ∈ tickers := by
  rw [priceSeries, Dict.get?_group] at h
  split at h
  · cases h
  · rename_i hne
    obtain ⟨entry, hentry⟩ := List.exists_mem_of_ne_nil _ hne
    obtain ⟨hmem, hkey⟩ := List.mem_filter.mp hentry
    rw [← of_decide_eq_true hkey]
    exact mem_pricePoint hmem

/-- The series kept are those of the tickers asked for with two returns. -/
theorem mem_tickerReturns {ticker : String} {daily : Dict String K} :
    (ticker, daily) ∈ tickerReturns tickers priceRows ↔
      ticker ∈ tickers ∧ daily = returnsOf priceRows ticker ∧ 2 ≤ daily.size := by
  rw [tickerReturns, List.mem_filterMap]
  constructor
  · rintro ⟨⟨key, points⟩, hentry, h⟩
    dsimp only at h
    split at h
    · rename_i hsize
      cases h
      have hfound := Dict.get?_of_entry_mem hentry
      have hticker := priceSeries_mem hfound
      rw [priceSeries_get? _ hticker] at hfound
      split at hfound
      · cases hfound
      · cases hfound
        exact ⟨hticker, rfl, hsize⟩
    · cases h
  · rintro ⟨hticker, rfl, hsize⟩
    have hfound := priceSeries_get? priceRows hticker
    by_cases hempty : priceRows.filterMap (tickerPoint ticker) = []
    · rw [returnsOf, hempty] at hsize
      exact absurd hsize (Nat.not_succ_le_zero 1)
    · rw [if_neg hempty] at hfound
      refine ⟨_, Dict.entry_mem_of_get? hfound, ?_⟩
      dsimp only
      rw [returnsOf] at hsize
      rw [if_pos hsize, returnsOf]

theorem tickerReturns_nodup (tickers : List String) (priceRows : List (PriceRow K)) :
    ((tickerReturns tickers priceRows).map Prod.fst).Nodup := by
  have hkeys := (priceSeries tickers priceRows).keys_nodup
  rw [tickerReturns, List.map_filterMap]
  rw [Dict.keys] at hkeys
  refine hkeys.sublist ?_
  generalize (priceSeries tickers priceRows).entries = entries
  induction entries with
  | nil => exact List.Sublist.slnil
  | cons e entries ih =>
    by_cases hsize : 2 ≤ (dailyReturns (pySorted pointBefore e.2)).size
    · rw [List.filterMap_cons_some (b := e.1) (by simp [hsize]), List.map_cons]
      exact ih.cons_cons e.1
    · rw [List.filterMap_cons_none (by simp [hsize]), List.map_cons]
      exact ih.cons e.1

end Returns

section Matrices
variable {K : Type} [Field K]

theorem dot_map {ι : Type} (f g : ι → K) (l : List ι) :
    dot (l.map f) (l.map g) = (l.map fun i => f i * g i).sum := by
  rw [dot, List.zipWith_map, List.zipWith_self]

/-- An entry of a product of matrices made row by row. -/
theorem entry_matMulTransposed {ι : Type} (f g : ι → List K) (rows : List ι) {i j : ℕ} {a b : ι}
    (hi : rows[i]? = some a) (hj : rows[j]? = some b) :
    entry (matMulTransposed (rows.map f) (rows.map g)) i j = dot (f a) (g b) := by
  simp [entry, matMulTransposed, List.getD_eq_getElem?_getD, List.getElem?_map, hi, hj]

/-- A sum over all dates of terms that vanish off the common ones. -/
theorem sum_dates {dates : List String} (hnodup : dates.Nodup) {common : Finset String}
    (hsub : ∀ d ∈ common, d ∈ dates) {f g : String → K} (hcommon : ∀ d ∈ common, f d = g d)
    (hzero : ∀ d, d ∉ common → f d = 0) : (dates.map f).sum = ∑ d ∈ common, g d := by
  rw [← List.sum_toFinset f hnodup, ← Finset.sum_congr rfl hcommon]
  symm
  apply Finset.sum_subset
  · intro d hd
    exact List.mem_toFinset.mpr (hsub d hd)
  · intro d _ hd
    exact hzero d hd

/-- One where a series has a return. -/
def presentAt (series : Dict String K) (date : String) : K := if (series.get? date).isSome then 1 else 0

omit [Field K] in
theorem mem_iff_isSome {series : Dict String K} {date : String} :
    date ∈ series ↔ (series.get? date).isSome = true := by
  rw [Dict.mem_iff_get?, Option.isSome_iff_exists]

theorem valueAt_zero {series : Dict String K} {date : String} (h : date ∉ series) :
    valueAt series date = 0 := by
  rw [valueAt, Dict.get?_eq_none_iff.mpr h]
  rfl

theorem presentAt_zero {series : Dict String K} {date : String} (h : date ∉ series) :
    presentAt series date = 0 :=
  if_neg fun hsome => h (mem_iff_isSome.mpr hsome)

theorem presentAt_one {series : Dict String K} {date : String} (h : date ∈ series) :
    presentAt series date = 1 :=
  if_pos (mem_iff_isSome.mp h)

/-- The matrix sums of two series are the sums over their common dates. -/
theorem pairSums_entry {returns : List (String × Dict String K)} {dates : List String}
    (hnodup : dates.Nodup) (hdates : ∀ r ∈ returns, ∀ d ∈ r.2, d ∈ dates) {i j : ℕ}
    {x y : String × Dict String K} (hi : returns[i]? = some x) (hj : returns[j]? = some y) :
    let m := pairSums (returns.map fun r => dates.map fun d => r.2.get? d)
    entry m.counts i j = ((commonDates x.2 y.2).card : K) ∧
      entry m.sums i j = ∑ d ∈ commonDates x.2 y.2, valueAt x.2 d ∧
      entry m.squares i j = ∑ d ∈ commonDates x.2 y.2, valueAt x.2 d * valueAt x.2 d ∧
      entry m.products i j = ∑ d ∈ commonDates x.2 y.2, valueAt x.2 d * valueAt y.2 d := by
  have hobserved : (returns.map fun r => dates.map fun d => r.2.get? d).map
      (fun row => row.map fun v => if v.isSome then (1 : K) else 0) =
        returns.map fun r => dates.map (presentAt r.2) := by
    rw [List.map_map]
    exact List.map_congr_left fun r _ => List.map_map ..
  have hfilled : (returns.map fun r => dates.map fun d => r.2.get? d).map
      (fun row => row.map fun v => v.getD 0) = returns.map fun r => dates.map (valueAt r.2) := by
    rw [List.map_map]
    exact List.map_congr_left fun r _ => List.map_map ..
  have hsquares : (returns.map fun r => dates.map (valueAt r.2)).map (fun row => row.map fun v => v * v) =
      returns.map fun r => dates.map fun d => valueAt r.2 d * valueAt r.2 d := by
    rw [List.map_map]
    exact List.map_congr_left fun r _ => List.map_map ..
  have hsub : ∀ d ∈ commonDates x.2 y.2, d ∈ dates := fun d hd =>
    hdates x (List.mem_of_getElem? hi) d (mem_commonDates.mp hd).1
  have hoff : ∀ d, d ∉ commonDates x.2 y.2 → d ∉ x.2 ∨ d ∉ y.2 := fun d hd => by
    rw [mem_commonDates, not_and_or] at hd
    exact hd
  simp only [pairSums, hobserved, hfilled, hsquares]
  refine ⟨?_, ?_, ?_, ?_⟩
  · rw [entry_matMulTransposed _ _ returns hi hj, dot_map, Finset.cast_card]
    apply sum_dates hnodup hsub
    · intro d hd
      obtain ⟨hx, hy⟩ := mem_commonDates.mp hd
      rw [presentAt_one hx, presentAt_one hy, one_mul]
    · intro d hd
      rcases hoff d hd with h | h <;> simp [presentAt_zero h]
  · rw [entry_matMulTransposed _ _ returns hi hj, dot_map]
    apply sum_dates hnodup hsub
    · intro d hd
      rw [presentAt_one (mem_commonDates.mp hd).2, mul_one]
    · intro d hd
      rcases hoff d hd with h | h <;> simp [presentAt_zero, valueAt_zero, h]
  · rw [entry_matMulTransposed _ _ returns hi hj, dot_map]
    apply sum_dates hnodup hsub
    · intro d hd
      rw [presentAt_one (mem_commonDates.mp hd).2, mul_one]
    · intro d hd
      rcases hoff d hd with h | h <;> simp [presentAt_zero, valueAt_zero, h]
  · rw [entry_matMulTransposed _ _ returns hi hj, dot_map]
    apply sum_dates hnodup hsub
    · exact fun _ _ => rfl
    · intro d hd
      rcases hoff d hd with h | h <;> simp [valueAt_zero h]

variable [LinearOrder K] [IsStrictOrderedRing K]

/-- What the code compares and divides, for two series with two common dates. -/
theorem pair_moments {returns : List (String × Dict String K)} {dates : List String}
    (hnodup : dates.Nodup) (hdates : ∀ r ∈ returns, ∀ d ∈ r.2, d ∈ dates) {i j : ℕ}
    {x y : String × Dict String K} (hi : returns[i]? = some x) (hj : returns[j]? = some y)
    (hcommon : (commonDates x.2 y.2).Nonempty) :
    let m := pairSums (returns.map fun r => dates.map fun d => r.2.get? d)
    covarianceOf m (i, j) = coMoment (commonDates x.2 y.2) (valueAt x.2) (valueAt y.2) ∧
      varianceXOf m (i, j) = coMoment (commonDates x.2 y.2) (valueAt x.2) (valueAt x.2) ∧
      varianceYOf m (i, j) = coMoment (commonDates x.2 y.2) (valueAt y.2) (valueAt y.2) := by
  obtain ⟨hcounts, hsums, hsquares, hproducts⟩ := pairSums_entry hnodup hdates hi hj
  obtain ⟨-, hsums', hsquares', -⟩ := pairSums_entry hnodup hdates hj hi
  rw [commonDates_comm] at hsums' hsquares'
  refine ⟨?_, ?_, ?_⟩
  · rw [covarianceOf, hproducts, hsums, hsums', hcounts, coMoment_eq _ _ _ hcommon]
  · rw [varianceXOf, hsquares, hsums, hcounts, coMoment_eq _ _ _ hcommon]
  · rw [varianceYOf, hsquares', hsums', hcounts, coMoment_eq _ _ _ hcommon]

end Matrices

section Pairs

theorem mem_upperPairs {n i j : ℕ} : (i, j) ∈ upperPairs n ↔ i < j ∧ j < n := by
  rw [upperPairs, List.mem_flatMap]
  constructor
  · rintro ⟨k, hk, hpair⟩
    obtain ⟨l, hl, heq⟩ := List.mem_map.mp hpair
    cases heq
    rw [List.mem_range'_1] at hl
    rw [List.mem_range] at hk
    omega
  · rintro ⟨hij, hj⟩
    refine ⟨i, List.mem_range.mpr (hij.trans hj), List.mem_map.mpr ⟨j, ?_, rfl⟩⟩
    rw [List.mem_range'_1]
    omega

theorem nodup_upperPairs (n : ℕ) : (upperPairs n).Nodup := by
  rw [upperPairs, List.nodup_flatMap]
  constructor
  · intro i _
    exact List.Nodup.map (fun _ _ h => (Prod.mk.inj h).2) List.nodup_range'
  · apply List.nodup_range.imp
    intro a b hab p ha hb
    obtain ⟨_, _, rfl⟩ := List.mem_map.mp ha
    obtain ⟨_, _, heq⟩ := List.mem_map.mp hb
    exact hab (Prod.mk.inj heq).1.symm

/-- A pair of names, the smaller one first. -/
def orderedPair (a b : String) : String × String := if a < b then (a, b) else (b, a)

theorem orderedPair_eq {a b c d : String} (h : orderedPair a b = orderedPair c d) :
    a = c ∧ b = d ∨ a = d ∧ b = c := by
  rw [orderedPair, orderedPair] at h
  split at h <;> split at h <;> cases h
  · exact .inl ⟨rfl, rfl⟩
  · exact .inr ⟨rfl, rfl⟩
  · exact .inr ⟨rfl, rfl⟩
  · exact .inl ⟨rfl, rfl⟩

variable {K : Type} [Field K] [LinearOrder K] {sqrt : K → K}

theorem meanCorrelation_eq (m : PairSums K) (pairs : List (ℕ × ℕ)) :
    meanCorrelation sqrt m pairs =
      let compared := pairs.filter fun pair =>
        2 ≤ entry m.counts pair.1 pair.2 ∧ 0 < varianceXOf m pair ∧ 0 < varianceYOf m pair
      if compared = [] then none
      else some ((compared.map fun pair =>
        covarianceOf m pair / sqrt (varianceXOf m pair * varianceYOf m pair)).sum / compared.length) := by
  have hfilter : (pairs.filter fun pair => 2 ≤ entry m.counts pair.1 pair.2).filter
      (fun pair => 0 < varianceXOf m pair ∧ 0 < varianceYOf m pair) = pairs.filter fun pair =>
        2 ≤ entry m.counts pair.1 pair.2 ∧ 0 < varianceXOf m pair ∧ 0 < varianceYOf m pair := by
    rw [List.filter_filter]
    apply List.filter_congr
    intro pair _
    rw [Bool.eq_iff_iff, Bool.and_eq_true, decide_eq_true_eq, decide_eq_true_eq, decide_eq_true_eq]
    tauto
  rw [meanCorrelation]
  dsimp only
  rw [hfilter]
  split
  · rename_i hvalid
    rw [List.isEmpty_iff] at hvalid
    rw [hvalid, List.filter_nil] at hfilter
    rw [if_pos hfilter.symm]
  · simp only [List.isEmpty_iff, List.length_map]

end Pairs

section Average
variable {K : Type} [Field K] [LinearOrder K] [IsStrictOrderedRing K] {sqrt : K → K}
  {tickers : List String} {priceRows : List (PriceRow K)}

omit [Field K] [LinearOrder K] [IsStrictOrderedRing K] in
theorem card_commonDates_le (x y : Dict String K) : (commonDates x y).card ≤ x.size := by
  calc (commonDates x y).card ≤ x.keys.toFinset.card := Finset.card_le_card Finset.inter_subset_left
    _ ≤ x.keys.length := List.toFinset_card_le _
    _ = x.size := List.length_map _

/-- The dates of the matrix. -/
def matrixDates (returns : List (String × Dict String K)) : List String :=
  sortedSet (returns.flatMap fun r => r.2.keys)

omit [Field K] [LinearOrder K] [IsStrictOrderedRing K] in
theorem mem_matrixDates {returns : List (String × Dict String K)} :
    ∀ r ∈ returns, ∀ d ∈ r.2, d ∈ matrixDates returns := by
  intro r hr d hd
  rw [matrixDates, mem_sortedSet, List.mem_flatMap]
  exact ⟨r, hr, hd⟩

/-- The matrix sums of these returns. -/
def sumsOf (returns : List (String × Dict String K)) : PairSums K :=
  pairSums (returns.map fun r => (matrixDates returns).map fun d => r.2.get? d)

omit [IsStrictOrderedRing K] in
theorem averagePairwiseCorrelation_matrix :
    averagePairwiseCorrelation sqrt tickers priceRows =
      meanCorrelation sqrt (sumsOf (tickerReturns tickers priceRows))
        (upperPairs (tickerReturns tickers priceRows).length) := by
  rw [averagePairwiseCorrelation]
  dsimp only
  split
  · rename_i hfew
    have hnone : upperPairs (tickerReturns tickers priceRows).length = [] := by
      apply List.eq_nil_iff_forall_not_mem.mpr
      rintro ⟨i, j⟩ hpair
      have hpair := mem_upperPairs.mp hpair
      omega
    rw [hnone]
    rfl
  · rfl

/-- The code compares two series when they are comparable, and then divides their moments. -/
theorem compared_iff (sqrt : K → K) {returns : List (String × Dict String K)} {i j : ℕ} {x y : String × Dict String K}
    (hi : returns[i]? = some x) (hj : returns[j]? = some y) :
    (2 ≤ entry (sumsOf returns).counts i j ∧ 0 < varianceXOf (sumsOf returns) (i, j) ∧
        0 < varianceYOf (sumsOf returns) (i, j) ↔ Comparable x.2 y.2) ∧
      (Comparable x.2 y.2 → covarianceOf (sumsOf returns) (i, j) /
        sqrt (varianceXOf (sumsOf returns) (i, j) * varianceYOf (sumsOf returns) (i, j)) =
          correlationOf sqrt x.2 y.2) := by
  have hnodup : (matrixDates returns).Nodup := nodup_sortedSet _
  have hcounts := (pairSums_entry hnodup mem_matrixDates hi hj).1
  have hcount : (2 : K) ≤ entry (sumsOf returns).counts i j ↔ 2 ≤ (commonDates x.2 y.2).card := by
    rw [sumsOf, hcounts]
    exact Nat.ofNat_le_cast
  rw [hcount, Comparable]
  have hmoments : 2 ≤ (commonDates x.2 y.2).card → _ := fun h =>
    pair_moments hnodup mem_matrixDates hi hj (Finset.card_pos.mp (by omega))
  constructor
  · apply and_congr_right
    intro htwo
    obtain ⟨_, hx, hy⟩ := hmoments htwo
    rw [sumsOf, hx, hy]
  · rintro ⟨htwo, _⟩
    obtain ⟨hxy, hx, hy⟩ := hmoments htwo
    rw [sumsOf, hxy, hx, hy, correlationOf, pearson]

section
local instance two_atLeastTwo : Nat.AtLeastTwo 2 := ⟨le_rfl⟩

/-- The pairs of places that are compared. -/
def comparedPairs (returns : List (String × Dict String K)) : List (ℕ × ℕ) :=
  (upperPairs returns.length).filter fun pair =>
    2 ≤ entry (sumsOf returns).counts pair.1 pair.2 ∧ 0 < varianceXOf (sumsOf returns) pair ∧
      0 < varianceYOf (sumsOf returns) pair

end

omit [Field K] [LinearOrder K] [IsStrictOrderedRing K] in
def nameAt (returns : List (String × Dict String K)) (i : ℕ) : String :=
  (returns[i]?.map Prod.fst).getD ""

theorem mem_comparedPairs {returns : List (String × Dict String K)} {i j : ℕ} :
    (i, j) ∈ comparedPairs returns ↔ ∃ x y, i < j ∧ returns[i]? = some x ∧ returns[j]? = some y ∧
      Comparable x.2 y.2 := by
  rw [comparedPairs, List.mem_filter, mem_upperPairs, decide_eq_true_eq]
  constructor
  · rintro ⟨⟨hij, hj⟩, hcompared⟩
    have hi := List.getElem?_eq_getElem (hij.trans hj)
    have hj := List.getElem?_eq_getElem hj
    exact ⟨_, _, hij, hi, hj, (compared_iff id hi hj).1.mp hcompared⟩
  · rintro ⟨x, y, hij, hi, hj, hcomparable⟩
    exact ⟨⟨hij, (List.getElem?_eq_some_iff.mp hj).1⟩, (compared_iff id hi hj).1.mpr hcomparable⟩

omit [Field K] [LinearOrder K] [IsStrictOrderedRing K] in
theorem nameAt_eq {returns : List (String × Dict String K)} {i : ℕ} {x : String × Dict String K}
    (h : returns[i]? = some x) : nameAt returns i = x.1 := by
  rw [nameAt, h]
  rfl

omit [Field K] [LinearOrder K] [IsStrictOrderedRing K] in
theorem nameAt_injective {returns : List (String × Dict String K)} (h : (returns.map Prod.fst).Nodup)
    {i j : ℕ} {x y : String × Dict String K} (hi : returns[i]? = some x) (hj : returns[j]? = some y)
    (hname : x.1 = y.1) : i = j := by
  have hi' : (returns.map Prod.fst)[i]? = some x.1 := by rw [List.getElem?_map, hi]; rfl
  have hj' : (returns.map Prod.fst)[j]? = some y.1 := by rw [List.getElem?_map, hj]; rfl
  exact (List.getElem?_inj (List.getElem?_eq_some_iff.mp hi').1 h).mp (by rw [hi', hj', hname])

/-- Each pair of places compared stands for one unordered pair of tickers. -/
theorem comparedPairs_nodup {returns : List (String × Dict String K)}
    (h : (returns.map Prod.fst).Nodup) :
    ((comparedPairs returns).map fun p => orderedPair (nameAt returns p.1) (nameAt returns p.2)).Nodup := by
  apply List.Nodup.map_on _ ((nodup_upperPairs _).filter _)
  rintro ⟨i, j⟩ hij ⟨k, l⟩ hkl hsame
  obtain ⟨x, y, hlt, hi, hj, -⟩ := mem_comparedPairs.mp hij
  obtain ⟨u, v, hlt', hk, hl, -⟩ := mem_comparedPairs.mp hkl
  dsimp only at hsame
  rw [nameAt_eq hi, nameAt_eq hj, nameAt_eq hk, nameAt_eq hl] at hsame
  rcases orderedPair_eq hsame with ⟨hxu, hyv⟩ | ⟨hxv, hyu⟩
  · exact Prod.ext (nameAt_injective h hi hk hxu) (nameAt_injective h hj hl hyv)
  · have hil : i = l := nameAt_injective h hi hl hxv
    have hjk : j = k := nameAt_injective h hj hk hyu
    omega

omit [IsStrictOrderedRing K] in
theorem mem_comparablePairs {p : String × String} :
    p ∈ comparablePairs tickers priceRows ↔ p.1 ∈ tickers ∧ p.2 ∈ tickers ∧ p.1 < p.2 ∧
      Comparable (returnsOf priceRows p.1) (returnsOf priceRows p.2) := by
  rw [comparablePairs, Finset.mem_filter, Finset.mem_product, List.mem_toFinset, List.mem_toFinset,
    and_assoc]

/-- The pairs compared are the comparable ones. -/
theorem mem_comparedPairs_map {p : String × String} :
    (p ∈ (comparedPairs (tickerReturns tickers priceRows)).map fun q =>
      orderedPair (nameAt (tickerReturns tickers priceRows) q.1)
        (nameAt (tickerReturns tickers priceRows) q.2)) ↔ p ∈ comparablePairs tickers priceRows := by
  rw [List.mem_map, mem_comparablePairs]
  have hnodup := tickerReturns_nodup tickers priceRows
  constructor
  · rintro ⟨⟨i, j⟩, hpair, rfl⟩
    obtain ⟨x, y, hij, hi, hj, hcomparable⟩ := mem_comparedPairs.mp hpair
    obtain ⟨hx, hxr, -⟩ := mem_tickerReturns.mp (List.mem_of_getElem? hi)
    obtain ⟨hy, hyr, -⟩ := mem_tickerReturns.mp (List.mem_of_getElem? hj)
    have hne : x.1 ≠ y.1 := fun h => hij.ne (nameAt_injective hnodup hi hj h)
    dsimp only
    rw [nameAt_eq hi, nameAt_eq hj, orderedPair]
    rw [hxr, hyr] at hcomparable
    by_cases hlt : x.1 < y.1
    · rw [if_pos hlt]
      exact ⟨hx, hy, hlt, hcomparable⟩
    · rw [if_neg hlt]
      exact ⟨hy, hx, lt_of_le_of_ne (not_lt.mp hlt) hne.symm, (comparable_comm _ _).mp hcomparable⟩
  · obtain ⟨a, b⟩ := p
    rintro ⟨ha, hb, hlt, hcomparable⟩
    have hsizeA := hcomparable.1.trans (card_commonDates_le _ _)
    have hsizeB := ((comparable_comm _ _).mp hcomparable).1.trans (card_commonDates_le _ _)
    obtain ⟨i, hi⟩ := List.mem_iff_getElem?.mp (mem_tickerReturns.mpr ⟨ha, rfl, hsizeA⟩)
    obtain ⟨j, hj⟩ := List.mem_iff_getElem?.mp (mem_tickerReturns.mpr ⟨hb, rfl, hsizeB⟩)
    rcases Nat.lt_trichotomy i j with hij | rfl | hij
    · refine ⟨(i, j), mem_comparedPairs.mpr ⟨_, _, hij, hi, hj, hcomparable⟩, ?_⟩
      dsimp only
      rw [nameAt_eq hi, nameAt_eq hj, orderedPair, if_pos hlt]
    · rw [hi] at hj
      cases hj
      exact absurd hlt (lt_irrefl _)
    · refine ⟨(j, i), mem_comparedPairs.mpr ⟨_, _, hij, hj, hi, (comparable_comm _ _).mp hcomparable⟩, ?_⟩
      dsimp only
      rw [nameAt_eq hi, nameAt_eq hj, orderedPair, if_neg (not_lt.mpr hlt.le)]

variable (sqrt tickers priceRows) in
/-- The correlations of the pairs compared, by their tickers. -/
theorem comparedPairs_correlations :
    ((comparedPairs (tickerReturns tickers priceRows)).map fun pair =>
      covarianceOf (sumsOf (tickerReturns tickers priceRows)) pair /
        sqrt (varianceXOf (sumsOf (tickerReturns tickers priceRows)) pair *
          varianceYOf (sumsOf (tickerReturns tickers priceRows)) pair)) =
      ((comparedPairs (tickerReturns tickers priceRows)).map fun q =>
        orderedPair (nameAt (tickerReturns tickers priceRows) q.1)
          (nameAt (tickerReturns tickers priceRows) q.2)).map fun p =>
            correlationOf sqrt (returnsOf priceRows p.1) (returnsOf priceRows p.2) := by
  rw [List.map_map]
  apply List.map_congr_left
  rintro ⟨i, j⟩ hpair
  obtain ⟨x, y, _, hi, hj, hcomparable⟩ := mem_comparedPairs.mp hpair
  obtain ⟨-, hxr, -⟩ := mem_tickerReturns.mp (List.mem_of_getElem? hi)
  obtain ⟨-, hyr, -⟩ := mem_tickerReturns.mp (List.mem_of_getElem? hj)
  rw [(compared_iff sqrt hi hj).2 hcomparable, Function.comp_apply, nameAt_eq hi, nameAt_eq hj,
    orderedPair, hxr, hyr]
  split
  · rfl
  · exact correlationOf_comm _ _ _

theorem averagePairwiseCorrelation_eq :
    averagePairwiseCorrelation sqrt tickers priceRows =
      if comparablePairs tickers priceRows = ∅ then none
      else some (average (comparablePairs tickers priceRows) fun p =>
        correlationOf sqrt (returnsOf priceRows p.1) (returnsOf priceRows p.2)) := by
  have hnodup := comparedPairs_nodup (tickerReturns_nodup tickers priceRows)
  have hset : ((comparedPairs (tickerReturns tickers priceRows)).map fun q =>
      orderedPair (nameAt (tickerReturns tickers priceRows) q.1)
        (nameAt (tickerReturns tickers priceRows) q.2)).toFinset = comparablePairs tickers priceRows := by
    ext p
    rw [List.mem_toFinset, mem_comparedPairs_map]
  have hcorrelations := comparedPairs_correlations sqrt tickers priceRows
  rw [averagePairwiseCorrelation_matrix, meanCorrelation_eq]
  change (if comparedPairs (tickerReturns tickers priceRows) = [] then none
    else some (((comparedPairs (tickerReturns tickers priceRows)).map _).sum /
      ((comparedPairs (tickerReturns tickers priceRows)).length : K))) = _
  rw [hcorrelations, ← List.sum_toFinset _ hnodup, hset, average, ← hset, List.toFinset_card_of_nodup hnodup,
    List.length_map]
  simp only [List.toFinset_eq_empty_iff, List.map_eq_nil_iff]

theorem correlationOf_mem (hsqrt : ∀ a, 0 ≤ a → 0 ≤ sqrt a ∧ sqrt a * sqrt a = a) {p : String × String}
    (hp : p ∈ comparablePairs tickers priceRows) :
    -1 ≤ correlationOf sqrt (returnsOf priceRows p.1) (returnsOf priceRows p.2) ∧
      correlationOf sqrt (returnsOf priceRows p.1) (returnsOf priceRows p.2) ≤ 1 := by
  obtain ⟨_, _, _, _, hx, hy⟩ := mem_comparablePairs.mp hp
  exact pearson_mem hsqrt hx hy

theorem averageCorrelation_mem (hsqrt : ∀ a, 0 ≤ a → 0 ≤ sqrt a ∧ sqrt a * sqrt a = a) {c : K}
    (h : averagePairwiseCorrelation sqrt tickers priceRows = some c) : -1 ≤ c ∧ c ≤ 1 := by
  rw [averagePairwiseCorrelation_eq] at h
  split at h
  · cases h
  · rename_i hne
    cases h
    exact average_mem (fun p hp => correlationOf_mem hsqrt hp) (Finset.nonempty_iff_ne_empty.mpr hne)

theorem sqrt_mem_unit (hsqrt : ∀ a, 0 ≤ a → 0 ≤ sqrt a ∧ sqrt a * sqrt a = a) {a : K} (ha : 0 ≤ a)
    (h : a ≤ 1) : 0 ≤ sqrt a ∧ sqrt a ≤ 1 := by
  obtain ⟨hnonneg, hsquare⟩ := hsqrt a ha
  refine ⟨hnonneg, ?_⟩
  by_contra hlarge
  rw [not_le] at hlarge
  have hmore : 1 < sqrt a * sqrt a := one_lt_mul_of_lt_of_le hlarge hlarge.le
  linarith

omit [IsStrictOrderedRing K] in
theorem sectorSpread_mem [ZeroLEOneClass K] (effectiveSectors : K) (nameCount : ℕ) :
    0 ≤ sectorSpread effectiveSectors nameCount ∧ sectorSpread effectiveSectors nameCount ≤ 1 :=
  ⟨le_min zero_le_one (le_max_left ..), min_le_left ..⟩

theorem correlationSpread_mem {correlation : Option K} (h : ∀ c, correlation = some c → c ≤ 1) :
    0 ≤ correlationSpread correlation ∧ correlationSpread correlation ≤ 1 := by
  cases correlation with
  | none => exact ⟨zero_le_one, le_rfl⟩
  | some c =>
    have hlow : 0 ≤ max 0 c := le_max_left ..
    have hhigh : max 0 c ≤ 1 := max_le zero_le_one (h c rfl)
    rw [correlationSpread]
    constructor <;> linarith

/-- The geometric mean of two spreads. -/
theorem spread_score_mem (hsqrt : ∀ a, 0 ≤ a → 0 ≤ sqrt a ∧ sqrt a * sqrt a = a) (effectiveSectors : K)
    (nameCount : ℕ) {correlation : Option K} (h : ∀ c, correlation = some c → c ≤ 1) :
    0 ≤ sqrt (sectorSpread effectiveSectors nameCount * correlationSpread correlation) ∧
      sqrt (sectorSpread effectiveSectors nameCount * correlationSpread correlation) ≤ 1 := by
  obtain ⟨hsector, hsector'⟩ := sectorSpread_mem effectiveSectors nameCount
  obtain ⟨hspread, hspread'⟩ := correlationSpread_mem h
  exact sqrt_mem_unit hsqrt (mul_nonneg hsector hspread) (mul_le_one₀ hsector' hspread hspread')

/-- The code's mean is that of the correlations by pairs, each at most one in size, and the score
made of it lies between nothing and full diversification. -/
theorem averageCorrelation_pairwise (hsqrt : ∀ a, 0 ≤ a → 0 ≤ sqrt a ∧ sqrt a * sqrt a = a)
    (tickers : List String) (priceRows : List (PriceRow K)) :
    averagePairwiseCorrelation sqrt tickers priceRows =
        (if comparablePairs tickers priceRows = ∅ then none
        else some (average (comparablePairs tickers priceRows) fun p =>
          correlationOf sqrt (returnsOf priceRows p.1) (returnsOf priceRows p.2))) ∧
      (∀ p ∈ comparablePairs tickers priceRows,
        -1 ≤ correlationOf sqrt (returnsOf priceRows p.1) (returnsOf priceRows p.2) ∧
          correlationOf sqrt (returnsOf priceRows p.1) (returnsOf priceRows p.2) ≤ 1) ∧
      ∀ candidates risk, unroundedRisk sqrt candidates priceRows = some risk →
        0 ≤ risk.diversificationScore ∧ risk.diversificationScore ≤ 1 := by
  refine ⟨averagePairwiseCorrelation_eq, fun p hp => correlationOf_mem hsqrt hp, ?_⟩
  intro candidates risk h
  rw [unroundedRisk] at h
  dsimp only at h
  split at h
  · cases h
  · cases h
    exact spread_score_mem hsqrt _ _ fun c hc => (averageCorrelation_mem hsqrt hc).2

end Average

/-- Two tickers with three closes each. -/
def twoTickerRows (K : Type) [Field K] : List (PriceRow K) :=
  [("1", "2024-01-02", 100), ("1", "2024-01-03", 110), ("1", "2024-01-04", 99), ("2", "2024-01-02", 50),
    ("2", "2024-01-03", 40), ("2", "2024-01-04", 60)].map fun (ticker, date, close) =>
      ⟨some ticker, some date, some close⟩

theorem averageCorrelation_pairwise_twoTickers :
    averagePairwiseCorrelation Real.sqrt ["000001", "000002"] (twoTickerRows ℝ) =
      if comparablePairs ["000001", "000002"] (twoTickerRows ℝ) = ∅ then none
      else some (average (comparablePairs ["000001", "000002"] (twoTickerRows ℝ)) fun p =>
        correlationOf Real.sqrt (returnsOf (twoTickerRows ℝ) p.1) (returnsOf (twoTickerRows ℝ) p.2)) :=
  (averageCorrelation_pairwise (fun a ha => ⟨Real.sqrt_nonneg a, Real.mul_self_sqrt ha⟩)
    ["000001", "000002"] (twoTickerRows ℝ)).1

end QuantAgent.Risk
