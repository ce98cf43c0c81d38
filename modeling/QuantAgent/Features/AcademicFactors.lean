import QuantAgent.Lib.PrefixSums
import QuantAgent.Lib.Causal
import Mathlib.Analysis.Real.Sqrt

namespace QuantAgent.Features
set_option autoImplicit true

def MOMENTUM_LONG_LOOKBACK : ℕ := 252
def MOMENTUM_SKIP_LOOKBACK : ℕ := 21
def REALIZED_VOLATILITY_LOOKBACK : ℕ := 21
def REBALANCE_INTERVAL_DAYS : ℕ := 21

/-- A float of exact value, or one that is no number. -/
inductive Close (K : Type) where
  | number (x : K)
  | nan
  | infinite (negative : Bool)

/-- The factor arrays of one stock; an entry that is NaN is none. -/
structure AcademicFactorArrays (K : Type) where
  momentum12_1 : List (Option K)
  sma50 : List (Option K)
  sma200 : List (Option K)
  realizedVolatility21d : List (Option K)
  rebalanceEligible : List Bool

section
variable {K : Type} [Field K] [LinearOrder K]

/-- `np.isfinite(value) & (value > 0.0)`, with the value that passes. -/
def Close.valid? : Close K → Option K
  | number x => if 0 < x then some x else none
  | nan => none
  | infinite _ => none

/-- The stretches of `window` entries that are all there, by count and by difference. -/
def completeWindow (counts : List ℤ) (window start : ℕ) : Prop :=
  counts.getD (start + window) 0 - counts.getD start 0 = (window : ℤ)

instance (counts : List ℤ) (window start : ℕ) : Decidable (completeWindow counts window start) :=
  inferInstanceAs (Decidable (_ = _))

/-- `_rolling_mean` -/
def rollingMean (values : List (Option K)) (window : ℕ) : List (Option K) :=
  if values.length < window then List.replicate values.length none
  else
    let valuePrefix := prefixSums (values.map (·.getD 0))
    let countPrefix := prefixSums (presence values)
    (List.range values.length).map fun index =>
      let start := index + 1 - window
      if window - 1 ≤ index ∧ completeWindow countPrefix window start then
        some ((valuePrefix.getD (start + window) 0 - valuePrefix.getD start 0) / window)
      else none

/-- The return of each close on the one before it, where both are valid. -/
def validReturns : List (Option K) → List (Option K) :=
  fromPrevious none fun previous current =>
    match previous, current with
    | some previous, some current => some (current / previous - 1)
    | _, _ => none

variable (sqrt : K → K)

def realizedVolatility (values : List (Option K)) : List (Option K) :=
  if REALIZED_VOLATILITY_LOOKBACK < values.length then
    let dailyReturns := validReturns values
    let safeReturns := dailyReturns.map (·.getD 0)
    let returnPrefix := prefixSums safeReturns
    let squarePrefix := prefixSums (safeReturns.map fun x => x * x)
    let countPrefix := prefixSums (presence dailyReturns)
    let window := REALIZED_VOLATILITY_LOOKBACK
    (List.range values.length).map fun index =>
      let start := index + 1 - window
      if REALIZED_VOLATILITY_LOOKBACK ≤ index ∧ completeWindow countPrefix window start then
        let total := returnPrefix.getD (start + window) 0 - returnPrefix.getD start 0
        let squareTotal := squarePrefix.getD (start + window) 0 - squarePrefix.getD start 0
        let mean := total / window
        let variance := max 0 (squareTotal / window - mean * mean)
        some (sqrt variance * sqrt 252)
      else none
  else List.replicate values.length none

def momentum (values : List (Option K)) : List (Option K) :=
  if MOMENTUM_LONG_LOOKBACK < values.length then
    (List.range values.length).map fun index =>
      if MOMENTUM_LONG_LOOKBACK ≤ index then
        match (values[index - MOMENTUM_SKIP_LOOKBACK]?).join,
          (values[index - MOMENTUM_LONG_LOOKBACK]?).join with
        | some numerator, some denominator => some (numerator / denominator - 1)
        | _, _ => none
      else none
  else List.replicate values.length none

/-- `rebalance[MOMENTUM_LONG_LOOKBACK::REBALANCE_INTERVAL_DAYS] = True` -/
def rebalanceGrid (size : ℕ) : List Bool :=
  if MOMENTUM_LONG_LOOKBACK < size then
    (List.range size).map fun index => decide (MOMENTUM_LONG_LOOKBACK ≤ index ∧
      (index - MOMENTUM_LONG_LOOKBACK) % REBALANCE_INTERVAL_DAYS = 0)
  else List.replicate size false

/-- `compute_academic_factor_arrays` -/
def computeAcademicFactorArrays (closes : List (Close K)) : AcademicFactorArrays K :=
  let values := closes.map Close.valid?
  { momentum12_1 := momentum values
    sma50 := rollingMean values 50
    sma200 := rollingMean values 200
    realizedVolatility21d := realizedVolatility sqrt values
    rebalanceEligible := rebalanceGrid values.length }

/-- The close of a day, if it is a valid one. -/
def closeAt (closes : List (Close K)) (t : ℕ) : Option K := closes[t]?.bind Close.valid?

/-- The return of a day on the day before. -/
def returnAt (closes : List (Close K)) (t : ℕ) : Option K :=
  if t = 0 then none
  else do
    let previous ← closeAt closes (t - 1)
    let current ← closeAt closes t
    return current / previous - 1

def momentumAt (closes : List (Close K)) (t : ℕ) : Option K :=
  if t < 252 then none
  else do
    let recent ← closeAt closes (t - 21)
    let base ← closeAt closes (t - 252)
    return recent / base - 1

/-- The mean of the last `window` closes, when all of them are valid. -/
def smaAt (window : ℕ) (closes : List (Close K)) (t : ℕ) : Option K :=
  if t + 1 < window then none
  else ((List.range' (t + 1 - window) window).mapM (closeAt closes)).map mean

/-- The last 21 daily returns, when all of them are defined. -/
def lastReturns (closes : List (Close K)) (t : ℕ) : Option (List K) :=
  if t < 21 then none else (List.range' (t - 20) 21).mapM (returnAt closes)

def volatilityAt (closes : List (Close K)) (t : ℕ) : Option K :=
  (lastReturns closes t).map fun returns => sqrt (populationVariance returns) * sqrt 252

def rebalanceAt (t : ℕ) : Bool := decide (252 ≤ t ∧ (t - 252) % 21 = 0)

variable {sqrt : K → K} {closes : List (Close K)}

theorem getElem?_valid (closes : List (Close K)) (t : ℕ) :
    ((closes.map Close.valid?)[t]?).join = closeAt closes t := by
  rw [List.getElem?_map, closeAt]
  cases closes[t]? <;> rfl

theorem map_range_eq {f g : ℕ → α} (h : ∀ t < n, f t = g t) :
    (List.range n).map f = (List.range n).map g :=
  List.map_congr_left fun t ht => h t (List.mem_range.mp ht)

theorem replicate_eq_map {f : ℕ → α} {a : α} (h : ∀ t < n, f t = a) :
    List.replicate n a = (List.range n).map f := by
  symm
  rw [List.eq_replicate_iff]
  constructor
  · rw [List.length_map, List.length_range]
  · intro b hb
    obtain ⟨t, ht, rfl⟩ := List.mem_map.mp hb
    exact h t (List.mem_range.mp ht)

omit [Field K] [LinearOrder K] in
/-- A complete window of entries read one by one. -/
theorem complete_iff {xs : List (Option K)} (h : start + n ≤ xs.length) :
    completeWindow (prefixSums (presence xs)) n start ↔
      ∀ i ∈ List.range' start n, ((xs[i]?).join).isSome := presence_full h

omit [LinearOrder K] in
theorem sum_window (xs : List (Option K)) (g : K → K) (h : start + n ≤ xs.length) :
    (prefixSums ((xs.map (·.getD 0)).map g)).getD (start + n) 0 -
        (prefixSums ((xs.map (·.getD 0)).map g)).getD start 0 =
      ((List.range' start n).map fun i => g (((xs[i]?).join).getD 0)).sum := by
  rw [prefixSums_sub (by rwa [List.length_map, List.length_map]), List.map_map, ← List.map_drop,
    ← List.map_take, drop_take_eq_map xs h, List.map_map]
  rfl

theorem rollingMean_eq (closes : List (Close K)) (hwindow : 0 < window) :
    rollingMean (closes.map Close.valid?) window = (List.range closes.length).map (smaAt window closes) := by
  rw [rollingMean, List.length_map]
  split
  · rename_i hshort
    apply replicate_eq_map
    intro t ht
    rw [smaAt, if_pos (by omega)]
  · apply map_range_eq
    intro t ht
    rw [smaAt]
    by_cases hearly : t + 1 < window
    · rw [if_neg (by omega), if_pos hearly]
    · have hin : t + 1 - window + window ≤ (closes.map Close.valid?).length := by
        rw [List.length_map]
        omega
      have hsum := sum_window (closes.map Close.valid?) id hin
      rw [List.map_id] at hsum
      rw [if_neg hearly, mapM_option (closeAt closes) 0]
      simp only [complete_iff hin, hsum, getElem?_valid, id_eq]
      by_cases hall : ∀ i ∈ List.range' (t + 1 - window) window, (closeAt closes i).isSome
      · rw [if_pos ⟨by omega, hall⟩, if_pos hall, Option.map_some, mean, List.length_map,
          List.length_range']
      · rw [if_neg fun h => hall h.2, if_neg hall, Option.map_none]

omit [LinearOrder K] in
theorem validReturns_concat (xs : List (Option K)) (x : Option K) :
    validReturns (xs ++ [x]) = validReturns xs ++ [do
      let previous ← xs.getLast?.join
      let current ← x
      return current / previous - 1] := by
  have hstate : ∀ (s : Option (Option K)) (l : List (Option K)),
      loopState (fun previous a => (some a, (previous.elim none fun b =>
        match b, a with
        | some b, some a => some (a / b - 1)
        | _, _ => none : Option K))) s l = l.getLast?.or s := by
    intro s l
    induction l using List.reverseRecOn with
    | nil => rfl
    | append_singleton l a ih => rw [loopState_concat, List.getLast?_concat, Option.some_or]
  rw [validReturns, fromPrevious, loopMap_concat]
  congr 2
  rw [hstate, Option.or_none]
  cases xs.getLast? with
  | none => rfl
  | some last => cases last <;> cases x <;> rfl

theorem validReturns_getElem? (closes : List (Close K)) (t : ℕ) :
    ((validReturns (closes.map Close.valid?))[t]?).join = returnAt closes t := by
  induction closes using List.reverseRecOn with
  | nil =>
    rw [returnAt]
    split
    · rfl
    · rfl
  | append_singleton closes c ih =>
    have hlength : (validReturns (closes.map Close.valid?)).length = closes.length := by
      rw [validReturns, fromPrevious, length_loopMap, List.length_map]
    have hclose : ∀ i < closes.length, closeAt (closes ++ [c]) i = closeAt closes i := by
      intro i hi
      rw [closeAt, closeAt, List.getElem?_append_left hi]
    rw [List.map_append, List.map_singleton, validReturns_concat]
    rcases Nat.lt_trichotomy t closes.length with ht | rfl | ht
    · rw [List.getElem?_append_left (hlength ▸ ht), ih, returnAt, returnAt]
      split
      · rfl
      · rw [hclose t ht, hclose (t - 1) (by omega)]
    · rw [List.getElem?_append_right hlength.le, hlength, Nat.sub_self, List.getElem?_cons_zero,
        Option.join_some, returnAt, List.getLast?_map]
      have hcurrent : closeAt (closes ++ [c]) closes.length = c.valid? := by
        rw [closeAt, List.getElem?_concat_length, Option.bind_some]
      rw [hcurrent]
      split
      · rename_i hempty
        rw [List.length_eq_zero_iff.mp hempty]
        rfl
      · rw [hclose _ (by omega), closeAt, List.getLast?_eq_getElem?]
        cases closes[closes.length - 1]? <;> rfl
    · have hout : closeAt (closes ++ [c]) t = none := by
        rw [closeAt, List.getElem?_eq_none (by rw [List.length_append, List.length_singleton]; omega)]
        rfl
      rw [List.getElem?_eq_none (by rw [List.length_append, hlength, List.length_singleton]; omega),
        returnAt, if_neg (by omega), hout]
      cases closeAt (closes ++ [c]) (t - 1) <;> rfl

omit [LinearOrder K] in
theorem length_validReturns (xs : List (Option K)) : (validReturns xs).length = xs.length := by
  rw [validReturns, fromPrevious, length_loopMap]

theorem realizedVolatility_eq [IsStrictOrderedRing K] (closes : List (Close K)) :
    realizedVolatility sqrt (closes.map Close.valid?) =
      (List.range closes.length).map (volatilityAt sqrt closes) := by
  rw [realizedVolatility, List.length_map, REALIZED_VOLATILITY_LOOKBACK]
  split
  · apply map_range_eq
    intro t ht
    rw [volatilityAt, lastReturns]
    by_cases hearly : t < 21
    · rw [if_neg (by omega), if_pos hearly, Option.map_none]
    · have hstart : t + 1 - 21 = t - 20 := by omega
      have hin : t - 20 + 21 ≤ (validReturns (closes.map Close.valid?)).length := by
        rw [length_validReturns, List.length_map]
        omega
      have hsum := sum_window (validReturns (closes.map Close.valid?)) id hin
      have hsquares := sum_window (validReturns (closes.map Close.valid?)) (fun x => x * x) hin
      rw [List.map_id] at hsum
      rw [if_neg hearly, mapM_option (returnAt closes) 0, hstart]
      simp only [complete_iff hin, hsum, hsquares, validReturns_getElem?, id_eq]
      by_cases hall : ∀ i ∈ List.range' (t - 20) 21, (returnAt closes i).isSome
      · have hne : ((List.range' (t - 20) 21).map fun i => (returnAt closes i).getD 0) ≠ [] := by
          rw [ne_eq, List.map_eq_nil_iff, List.range'_eq_nil_iff]
          decide
        have hvariance := populationVariance_eq hne
        have hnonneg := populationVariance_nonneg
          ((List.range' (t - 20) 21).map fun i => (returnAt closes i).getD 0)
        rw [mean, mean, List.length_map, List.length_map, List.length_range', List.map_map] at hvariance
        rw [if_pos ⟨by omega, hall⟩, if_pos hall, Option.map_some, ← max_eq_right hnonneg, hvariance]
        rfl
      · rw [if_neg fun h => hall h.2, if_neg hall, Option.map_none]
  · apply replicate_eq_map
    intro t ht
    rw [volatilityAt, lastReturns, if_pos (by omega), Option.map_none]

theorem momentum_eq (closes : List (Close K)) :
    momentum (closes.map Close.valid?) = (List.range closes.length).map (momentumAt closes) := by
  rw [momentum, List.length_map, MOMENTUM_LONG_LOOKBACK, MOMENTUM_SKIP_LOOKBACK]
  split
  · apply map_range_eq
    intro t _
    rw [momentumAt, getElem?_valid, getElem?_valid]
    by_cases hearly : t < 252
    · rw [if_neg (by omega), if_pos hearly]
    · rw [if_pos (by omega), if_neg hearly]
      cases closeAt closes (t - 21) <;> cases closeAt closes (t - 252) <;> rfl
  · apply replicate_eq_map
    intro t ht
    rw [momentumAt, if_pos (by omega)]

theorem rebalanceGrid_eq (size : ℕ) : rebalanceGrid size = (List.range size).map rebalanceAt := by
  rw [rebalanceGrid, MOMENTUM_LONG_LOOKBACK, REBALANCE_INTERVAL_DAYS]
  split
  · rfl
  · apply replicate_eq_map
    intro t ht
    rw [rebalanceAt, decide_eq_false_iff_not]
    omega

section Causality
variable {t n : ℕ}

theorem closeAt_take (closes : List (Close K)) (ht : t < n) : closeAt (closes.take n) t = closeAt closes t := by
  rw [closeAt, closeAt, List.getElem?_take_of_lt ht]

theorem returnAt_take (closes : List (Close K)) (ht : t < n) :
    returnAt (closes.take n) t = returnAt closes t := by
  rw [returnAt, returnAt, closeAt_take closes ht, closeAt_take closes (Nat.lt_of_le_of_lt (t.sub_le 1) ht)]

theorem momentumAt_take (closes : List (Close K)) (ht : t < n) :
    momentumAt (closes.take n) t = momentumAt closes t := by
  rw [momentumAt, momentumAt, closeAt_take closes (Nat.lt_of_le_of_lt (t.sub_le 21) ht),
    closeAt_take closes (Nat.lt_of_le_of_lt (t.sub_le 252) ht)]

omit [Field K] [LinearOrder K] in
theorem mapM_range'_congr {f g : ℕ → Option K} (h : ∀ i ∈ List.range' start count, f i = g i) :
    (List.range' start count).mapM f = (List.range' start count).mapM g := by
  induction count generalizing start with
  | zero => rfl
  | succ count ih =>
    rw [List.range'_succ] at h ⊢
    obtain ⟨hfirst, hrest⟩ := List.forall_mem_cons.mp h
    rw [List.mapM_cons, List.mapM_cons, hfirst, ih hrest]

theorem smaAt_take (window : ℕ) (closes : List (Close K)) (ht : t < n) :
    smaAt window (closes.take n) t = smaAt window closes t := by
  rw [smaAt, smaAt]
  split
  · rfl
  · rw [mapM_range'_congr]
    intro i hi
    have hlast := (List.mem_range'_1.mp hi).2
    exact closeAt_take closes (by omega)

theorem lastReturns_take (closes : List (Close K)) (ht : t < n) :
    lastReturns (closes.take n) t = lastReturns closes t := by
  rw [lastReturns, lastReturns]
  split
  · rfl
  · rw [mapM_range'_congr]
    intro i hi
    have hlast := (List.mem_range'_1.mp hi).2
    exact returnAt_take closes (by omega)

theorem map_range_take {f g : ℕ → α} (h : ∀ t < n, f t = g t) (size : ℕ) :
    (List.range (min n size)).map f = ((List.range size).map g).take n := by
  rw [← List.map_take, List.take_range]
  exact map_range_eq fun t ht => h t (ht.trans_le (min_le_left ..))

end Causality

/-- The arrays of the first days. -/
def AcademicFactorArrays.take (n : ℕ) (arrays : AcademicFactorArrays K) : AcademicFactorArrays K where
  momentum12_1 := arrays.momentum12_1.take n
  sma50 := arrays.sma50.take n
  sma200 := arrays.sma200.take n
  realizedVolatility21d := arrays.realizedVolatility21d.take n
  rebalanceEligible := arrays.rebalanceEligible.take n

/-- Every array, entry by entry, from the closes alone. -/
def factorsFromScratch (sqrt : K → K) (closes : List (Close K)) : AcademicFactorArrays K where
  momentum12_1 := (List.range closes.length).map (momentumAt closes)
  sma50 := (List.range closes.length).map (smaAt 50 closes)
  sma200 := (List.range closes.length).map (smaAt 200 closes)
  realizedVolatility21d := (List.range closes.length).map (volatilityAt sqrt closes)
  rebalanceEligible := (List.range closes.length).map rebalanceAt

theorem computeAcademicFactorArrays_eq [IsStrictOrderedRing K] (closes : List (Close K)) :
    computeAcademicFactorArrays sqrt closes = factorsFromScratch sqrt closes := by
  rw [computeAcademicFactorArrays, factorsFromScratch, momentum_eq, rollingMean_eq _ (by decide),
    rollingMean_eq _ (by decide), realizedVolatility_eq, List.length_map, rebalanceGrid_eq]

theorem factorsFromScratch_take (closes : List (Close K)) (n : ℕ) :
    factorsFromScratch sqrt (closes.take n) = (factorsFromScratch sqrt closes).take n := by
  have hvolatility : ∀ t < n, volatilityAt sqrt (closes.take n) t = volatilityAt sqrt closes t := by
    intro t ht
    rw [volatilityAt, volatilityAt, lastReturns_take closes ht]
  rw [factorsFromScratch, factorsFromScratch, AcademicFactorArrays.take, List.length_take,
    map_range_take fun _ ht => momentumAt_take closes ht,
    map_range_take fun _ ht => smaAt_take 50 closes ht,
    map_range_take fun _ ht => smaAt_take 200 closes ht, map_range_take hvolatility,
    map_range_take fun _ _ => rfl]

/-- Every array is its definition, of the closes so far; the volatility is so by its square. -/
theorem computeAcademicFactorArrays_exact_causal [IsStrictOrderedRing K]
    (hsqrt : ∀ x, 0 ≤ x → sqrt x * sqrt x = x) (closes : List (Close K)) :
    computeAcademicFactorArrays sqrt closes = factorsFromScratch sqrt closes ∧
      (∀ t, volatilityAt sqrt closes t = none ↔ lastReturns closes t = none) ∧
      (∀ t v returns, volatilityAt sqrt closes t = some v → lastReturns closes t = some returns →
        v * v = 252 * populationVariance returns) ∧
      ∀ n, computeAcademicFactorArrays sqrt (closes.take n) =
        (computeAcademicFactorArrays sqrt closes).take n := by
  refine ⟨computeAcademicFactorArrays_eq closes, ?_, ?_, ?_⟩
  · intro t
    rw [volatilityAt, Option.map_eq_none_iff]
  · intro t v returns hv hreturns
    rw [volatilityAt, hreturns, Option.map_some, Option.some.injEq] at hv
    have hvariance := hsqrt _ (populationVariance_nonneg returns)
    have hyear := hsqrt 252 (by norm_num)
    calc v * v = sqrt (populationVariance returns) * sqrt 252 *
          (sqrt (populationVariance returns) * sqrt 252) := by rw [hv]
      _ = sqrt 252 * sqrt 252 * (sqrt (populationVariance returns) * sqrt (populationVariance returns)) :=
          by ring
      _ = 252 * populationVariance returns := by rw [hvariance, hyear]
  · intro n
    rw [computeAcademicFactorArrays_eq, computeAcademicFactorArrays_eq, factorsFromScratch_take]

end

/-- A missing and an infinite close before a long stretch of valid ones. -/
theorem computeAcademicFactorArrays_exact_causal_gaps :
    computeAcademicFactorArrays Real.sqrt (.nan :: .infinite false :: List.replicate 300 (.number 3)) =
        factorsFromScratch Real.sqrt (.nan :: .infinite false :: List.replicate 300 (.number 3)) ∧
      (∀ t, volatilityAt Real.sqrt (.nan :: .infinite false :: List.replicate 300 (.number 3)) t = none ↔
        lastReturns (K := ℝ) (.nan :: .infinite false :: List.replicate 300 (.number 3)) t = none) ∧
      (∀ t v returns,
        volatilityAt Real.sqrt (.nan :: .infinite false :: List.replicate 300 (.number 3)) t = some v →
        lastReturns (.nan :: .infinite false :: List.replicate 300 (.number 3)) t = some returns →
        v * v = 252 * populationVariance returns) ∧
      ∀ n, computeAcademicFactorArrays Real.sqrt
          ((.nan :: .infinite false :: List.replicate 300 (.number 3) : List (Close ℝ)).take n) =
        (computeAcademicFactorArrays Real.sqrt
          (.nan :: .infinite false :: List.replicate 300 (.number 3))).take n :=
  computeAcademicFactorArrays_exact_causal (fun _ h => Real.mul_self_sqrt h) _

end QuantAgent.Features
