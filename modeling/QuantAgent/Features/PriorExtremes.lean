import QuantAgent.Features.PercentileRanks
import QuantAgent.Lib.ExactFloat

namespace QuantAgent.Features
set_option autoImplicit true

section
variable {F : Type} [NumPy F]

/-- `np.maximum.accumulate` or `np.minimum.accumulate`. -/
def accumulate (maximum : Bool) : List F → List F
  | [] => []
  | x :: xs =>
    let op := if maximum then npMaximum else npMinimum
    x :: loopMap (fun s y => (op s y, op s y)) x xs

/-- `.max()` or `.min()` -/
def extremeOf (maximum : Bool) (values : List F) : F := if maximum then npMax values else npMin values

/-- `sliding_window_view(values, window)` -/
def slidingWindows (values : List F) (window : ℕ) : List (List F) :=
  (List.range (values.length + 1 - window)).map fun i => (values.drop i).take window

/-- `_prior_rolling_extreme` -/
def priorRollingExtreme (values : List F) (window : ℤ) (maximum : Bool) : List F :=
  if values.length ≤ 1 ∨ window ≤ 0 then List.replicate values.length 0
  else
    let window := window.toNat
    let prefixEnd := min window values.length
    let early := accumulate maximum (values.take (prefixEnd - 1))
    let later := if window < values.length then
        (slidingWindows values.dropLast window).map (extremeOf maximum)
      else []
    0 :: (early ++ later)

theorem accumulate_getElem? (maximum : Bool) {values : List F} (h : i < values.length) :
    (accumulate maximum values)[i]? = some (extremeOf maximum (values.take (i + 1))) := by
  have hloop : ∀ (op : F → F → F) (xs : List F) (x : F) (i : ℕ), i < xs.length →
      (loopMap (fun s y => (op s y, op s y)) x xs)[i]? = some ((xs.take (i + 1)).foldl op x) := by
    intro op xs
    induction xs with
    | nil => nofun
    | cons y xs ih =>
      intro x i hi
      cases i with
      | zero => rfl
      | succ i => exact ih (op x y) i (Nat.lt_of_succ_lt_succ hi)
  cases values with
  | nil => cases h
  | cons x xs =>
    cases i with
    | zero => cases maximum <;> rfl
    | succ i =>
      rw [accumulate, List.getElem?_cons_succ, hloop _ _ _ _ (Nat.lt_of_succ_lt_succ h), extremeOf]
      cases maximum <;> rfl

theorem length_accumulate (maximum : Bool) (values : List F) :
    (accumulate maximum values).length = values.length := by
  cases values with
  | nil => rfl
  | cons x xs => rw [accumulate, List.length_cons, length_loopMap, List.length_cons]

/-- A bar with bars before it has the extreme of the last of them, up to `window` many. -/
theorem priorRollingExtreme_getElem? (maximum : Bool) {values : List F} {window : ℤ} (hwindow : 0 < window)
    (hpos : 0 < t) (ht : t < values.length) :
    (priorRollingExtreme values window maximum)[t]? =
      some (extremeOf maximum (lastN window.toNat (values.take t))) := by
  obtain ⟨n, rfl⟩ := Int.eq_ofNat_of_zero_le hwindow.le
  have hn : 0 < n := by exact_mod_cast hwindow
  obtain ⟨k, rfl⟩ := Nat.exists_eq_succ_of_ne_zero hpos.ne'
  have hlong : ¬(values.length ≤ 1 ∨ ((n : ℕ) : ℤ) ≤ 0) := by omega
  have hearly : (accumulate maximum (values.take (min n values.length - 1))).length =
      min n values.length - 1 := by
    rw [length_accumulate, List.length_take]
    omega
  have hfront : (values.take (k + 1)).length = k + 1 := by
    rw [List.length_take, min_eq_left ht.le]
  rw [priorRollingExtreme, if_neg hlong, Int.toNat_natCast, Nat.succ_eq_add_one,
    List.getElem?_cons_succ, lastN, hfront]
  rcases Nat.lt_or_ge (k + 1) n with h | h
  · have hk : k < min n values.length - 1 := by omega
    rw [List.getElem?_append_left (hk.trans_eq hearly.symm),
      accumulate_getElem? maximum (by rw [List.length_take]; omega), List.take_take,
      min_eq_left (by omega), Nat.sub_eq_zero_of_le h.le, List.drop_zero]
  · have hlast : values.dropLast.length = values.length - 1 := List.length_dropLast
    have hinside : k + 1 - n < values.dropLast.length + 1 - n := by omega
    rw [List.getElem?_append_right (by omega), hearly, if_pos (by omega), slidingWindows, List.map_map,
      List.getElem?_map, List.getElem?_range (by omega), Option.map_some, Function.comp_apply]
    congr 2
    rw [List.dropLast_eq_take, List.drop_take, List.take_take, List.drop_take]
    congr 1
    · omega
    · congr 1
      omega

theorem priorRollingExtreme_zero (maximum : Bool) {values : List F} (hne : values ≠ []) (window : ℤ) :
    (priorRollingExtreme values window maximum)[0]? = some 0 := by
  have hlength : 0 < values.length := List.length_pos_iff.mpr hne
  rw [priorRollingExtreme]
  split
  · rw [List.getElem?_replicate, if_pos hlength]
  · rfl

theorem priorRollingExtreme_noWindow (maximum : Bool) (values : List F) {window : ℤ} (h : window ≤ 0) :
    priorRollingExtreme values window maximum = List.replicate values.length 0 :=
  if_pos (.inr h)

end

section Exact
variable [PySqrt ℚ]

/-- The values of the `window` bars before bar `t`, as far as there are that many. -/
def precedingBars (values : List ℚ) (window : ℤ) (t : ℕ) : Set ℚ :=
  {a | ∃ k : ℕ, 1 ≤ k ∧ (k : ℤ) ≤ window ∧ k ≤ t ∧ values[t - k]? = some a}

/-- The highest or the lowest value of a set. -/
def IsExtreme (maximum : Bool) (s : Set ℚ) (x : ℚ) : Prop :=
  if maximum then IsGreatest s x else IsLeast s x

theorem extremeOf_num (maximum : Bool) {values : List ℚ} (hne : values ≠ []) :
    ∃ x, extremeOf maximum (values.map Flt.num) = .num x ∧ IsExtreme maximum {a | a ∈ values} x := by
  cases values with
  | nil => cases hne rfl
  | cons a values =>
    cases maximum with
    | true => exact ⟨_, foldl_npMaximum_num a values, isGreatest_foldl_max a values⟩
    | false => exact ⟨_, foldl_npMinimum_num a values, isLeast_foldl_min a values⟩

omit [PySqrt ℚ] in
theorem mem_lastN_take {values : List ℚ} {window : ℤ} (hwindow : 0 < window) (ht : t < values.length)
    (a : ℚ) : a ∈ lastN window.toNat (values.take t) ↔ a ∈ precedingBars values window t := by
  have hfront : (values.take t).length = t := by rw [List.length_take, min_eq_left ht.le]
  rw [lastN, hfront, List.mem_iff_getElem?]
  constructor
  · rintro ⟨i, hi⟩
    have hlt := (List.getElem?_eq_some_iff.mp hi).1
    rw [List.length_drop, hfront] at hlt
    rw [List.getElem?_drop, List.getElem?_take_of_lt (by omega)] at hi
    have hplace : t - (t - (t - window.toNat + i)) = t - window.toNat + i := by omega
    exact ⟨t - (t - window.toNat + i), by omega, by omega, by omega, by rw [hplace, hi]⟩
  · rintro ⟨k, hk, hkw, hkt, hget⟩
    refine ⟨t - k - (t - window.toNat), ?_⟩
    have hplace : t - window.toNat + (t - k - (t - window.toNat)) = t - k := by omega
    rw [List.getElem?_drop, List.getElem?_take_of_lt (by omega), hplace, hget]

theorem priorRollingExtreme_exact (maximum : Bool) {values : List ℚ} {window : ℤ} (hwindow : 0 < window)
    (hpos : 0 < t) (ht : t < values.length) :
    ∃ x, (priorRollingExtreme (values.map Flt.num) window maximum)[t]? = some (.num x) ∧
      IsExtreme maximum (precedingBars values window t) x := by
  have hlast : lastN window.toNat ((values.map Flt.num).take t) =
      (lastN window.toNat (values.take t)).map (Flt.num (K := ℚ)) := by
    simp only [lastN, List.map_take, List.map_drop, List.length_take, List.length_map]
  have hset : {a | a ∈ lastN window.toNat (values.take t)} = precedingBars values window t :=
    Set.ext fun a => mem_lastN_take hwindow ht a
  have hne : lastN window.toNat (values.take t) ≠ [] := by
    rw [ne_eq, ← List.length_eq_zero_iff, lastN, List.length_drop, List.length_take]
    omega
  obtain ⟨x, hx, hextreme⟩ := extremeOf_num maximum hne
  refine ⟨x, ?_, hset ▸ hextreme⟩
  rw [priorRollingExtreme_getElem? maximum hwindow hpos (by simpa using ht), hlast, hx]

end Exact

/-- The ranks of one cross section. -/
structure RanksAverage {F : Type} [PyFloat F] [MonotoneFloat F] (values : List (String × F)) : Prop where
  order_forgotten : ∀ values', values.Perm values' → percentileRanksByName values = percentileRanksByName values'
  names_forgotten : ∀ values' : List (String × F), (values.map Prod.snd).Perm (values'.map Prod.snd) →
    ∀ v, averageRank values v = averageRank values' v
  rank : ∀ name v, (name, v) ∈ values →
    (∀ w, (name, w) ∈ values → MonotoneFloat.value w ≤ MonotoneFloat.value v) →
    (percentileRanksByName values).get? name = some (averageRank values v)
  average : ∀ v ∈ values.map Prod.snd, 2 * (tiedPlaces values v).sum =
    (tiedPlaces values v).length * (countBelow values v + countUpTo values v - 1)
  mono : ∀ v ∈ values.map Prod.snd, ∀ w ∈ values.map Prod.snd,
    MonotoneFloat.value v ≤ MonotoneFloat.value w →
    MonotoneFloat.value (averageRank values v) ≤ MonotoneFloat.value (averageRank values w)
  bounded : ∀ v ∈ values.map Prod.snd,
    0 ≤ MonotoneFloat.value (averageRank values v) ∧ MonotoneFloat.value (averageRank values v) ≤ 1

/-- What each bar of a rolling extreme is; the first bar has none before it. -/
structure ExtremesPrecede [PySqrt ℚ] (values : List ℚ) (window : ℤ) (maximum : Bool) : Prop where
  preceding : 0 < window → ∀ t, 0 < t → t < values.length →
    ∃ x, (priorRollingExtreme (values.map Flt.num) window maximum)[t]? = some (.num x) ∧
      IsExtreme maximum (precedingBars values window t) x
  first : values ≠ [] → (priorRollingExtreme (values.map (Flt.num (K := ℚ))) window maximum)[0]? = some 0
  no_window : window ≤ 0 → priorRollingExtreme (values.map (Flt.num (K := ℚ))) window maximum =
    List.replicate values.length 0

theorem ranks_average_and_extremes_precede :
    (∀ {F : Type} [PyFloat F] [MonotoneFloat F] (values : List (String × F)), RanksAverage values) ∧
      ∀ [PySqrt ℚ] (values : List ℚ) (window : ℤ) (maximum : Bool),
        ExtremesPrecede values window maximum := by
  constructor
  · intro F _ _ values
    exact {
      order_forgotten := fun _ h => percentileRanksByName_perm h
      names_forgotten := fun _ h => averageRank_perm h
      rank := fun _ _ => percentileRanksByName_get?
      average := fun _ => sum_tiedPlaces
      mono := fun _ hv _ hw => averageRank_mono hv hw
      bounded := fun _ => averageRank_mem }
  · intro _ values window maximum
    constructor
    · intro hwindow t hpos ht
      exact priorRollingExtreme_exact maximum hwindow hpos ht
    · intro hne
      exact priorRollingExtreme_zero maximum (by simpa using hne) window
    · intro hwindow
      have hzeros := priorRollingExtreme_noWindow maximum (values.map (Flt.num (K := ℚ))) hwindow
      rwa [List.length_map] at hzeros

/-- The first bar has a zero, although there is no bar before it. -/
theorem first_bar_without_extreme :
    ¬∀ (values : List ℚ) (window : ℤ) (maximum : Bool), 0 < window → ∀ t x,
      (priorRollingExtreme (values.map Flt.num) window maximum)[t]? = some (.num x) →
        IsExtreme maximum (precedingBars values window t) x := by
  intro h
  have hzero : (priorRollingExtreme ([5].map (Flt.num (K := ℚ))) 3 true)[0]? = some (.num 0) :=
    priorRollingExtreme_zero true (by simp) 3
  obtain ⟨⟨k, hk, _, hk0, _⟩, _⟩ := h [5] 3 true (by decide) 0 0 hzero
  omega

end QuantAgent.Features
