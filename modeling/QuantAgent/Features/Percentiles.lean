import QuantAgent.Features.Series
import QuantAgent.Lib.Argsort
import QuantAgent.Lib.Binary64Rounding

namespace QuantAgent.Features
set_option autoImplicit true

section
variable {F : Type} [NumPy F]

/-- `percentileRanks`, whatever order `np.argsort` gives to equal values. -/
def percentileRanksBy (argsort : List F → List ℕ) (day : List F) : List F :=
  let finite := day.filter PyFloat.isFinite
  if finite.length < 2 then day.map fun _ => NumPy.nan
  else
    let order := argsort ((argsort finite).map fun i => (lit i : F))
    fillFinite day (order.map fun i => lit i / lit (finite.length - 1))

theorem percentileRanks_eq (day : List F) : percentileRanks day = percentileRanksBy NumPy.argsort day :=
  rfl

/-- `np.argsort` gives the places of its argument, in an order that sorts it. -/
structure Sorts (argsort : List F → List ℕ) : Prop where
  perm : ∀ xs : List F, (argsort xs).Perm (List.range xs.length)
  sorted : ∀ xs : List F, (∀ x ∈ xs, PyFloat.isFinite x = true) →
    (argsort xs).Pairwise fun i j => ∀ x ∈ xs[i]?, ∀ y ∈ xs[j]?, x ≤ y

/-- A ticker of a session, its value and the percentile of it. -/
structure Ranking (F : Type) where
  ticker : String
  value : F
  percentile : F
deriving DecidableEq

/-- The percentiles of a session's tickers, in the order they were loaded in. -/
def rankings (argsort : List F → List ℕ) (loaded : List (String × F)) : List (Ranking F) :=
  List.zipWith (fun entry percentile => ⟨entry.1, entry.2, percentile⟩) loaded
    (percentileRanksBy argsort (loaded.map Prod.snd))

/-- The numbers of a session. -/
def sessionValues (loaded : List (String × F)) : List F :=
  (loaded.map Prod.snd).filter PyFloat.isFinite

/-- A cross-section that treats its tickers alike; one number alone has no percentile. -/
structure Fair (argsort : List F → List ℕ) (loaded : List (String × F)) : Prop where
  equal : ∀ a ∈ rankings argsort loaded, ∀ b ∈ rankings argsort loaded,
    a.value = b.value → a.percentile = b.percentile
  monotone : ∀ a ∈ rankings argsort loaded, ∀ b ∈ rankings argsort loaded, a.value ≤ b.value →
    PyFloat.isFinite a.percentile = true → PyFloat.isFinite b.percentile = true →
      a.percentile ≤ b.percentile
  bounded : ∀ a ∈ rankings argsort loaded, PyFloat.isFinite a.percentile = true →
    0 ≤ a.percentile ∧ a.percentile ≤ 1
  given : 2 ≤ (sessionValues loaded).length → ∀ a ∈ rankings argsort loaded,
    PyFloat.isFinite a.value = true → PyFloat.isFinite a.percentile = true
  loading : ∀ loaded', loaded'.Perm loaded → (rankings argsort loaded').Perm (rankings argsort loaded)

theorem splitBy_map {r : β → β → Bool} (f : α → β) (l : List α) :
    (l.map f).splitBy r = (l.splitBy fun a b => r (f a) (f b)).map (List.map f) := by
  obtain ⟨hflat, hnil, hruns, hends⟩ := List.splitBy_eq_iff.mp
    (show l.splitBy (fun a b => r (f a) (f b)) = _ from rfl)
  rw [List.splitBy_eq_iff]
  refine ⟨?_, ?_, ?_, ?_⟩
  · rw [← List.map_flatten, ← hflat]
  · intro hmem
    obtain ⟨run, hrun, hempty⟩ := List.mem_map.mp hmem
    rw [List.map_eq_nil_iff] at hempty
    exact hnil (hempty ▸ hrun)
  · intro mapped hmapped
    obtain ⟨run, hrun, rfl⟩ := List.mem_map.mp hmapped
    exact (List.isChain_map f).mpr (hruns run hrun)
  · rw [List.isChain_map]
    refine hends.imp ?_
    rintro a b ⟨ha, hb, hend⟩
    refine ⟨by simpa using ha, by simpa using hb, ?_⟩
    rwa [List.getLast_map, List.head_map]

/-- The tickers of each session with their values. -/
def sessionsLoaded (S : PreparedFeatureStore F) (values : List F) : List (List (String × F)) :=
  (keyRuns S.dates (S.tickers.zip values)).map (List.map Prod.snd)

/-- The series of a percentile holds the percentiles of the sessions. -/
theorem bySession_rankings {S : PreparedFeatureStore F} {values : List F} (h : values.length = S.size) :
    S.bySession percentileRanks values =
      (sessionsLoaded S values).flatMap fun loaded => (rankings NumPy.argsort loaded).map (·.percentile) := by
  have hrankings : ∀ loaded : List (String × F), (rankings NumPy.argsort loaded).map (·.percentile) =
      percentileRanks (loaded.map Prod.snd) := by
    intro loaded
    rw [rankings, ← percentileRanks_eq, List.map_zipWith]
    apply List.ext_getElem
    · simp
    · intro i _ _
      simp
  have htickers : S.tickers.length = S.size := List.length_map _
  have hzip : S.dates.zip values =
      (S.dates.zip (S.tickers.zip values)).map fun e => (e.1, e.2.2) := by
    apply List.ext_getElem
    · simp [htickers, h]
    · intro i _ _
      simp
  rw [PreparedFeatureStore.bySession, byRun, keyRuns, hzip, splitBy_map, sessionsLoaded, keyRuns,
    List.flatMap_map, List.flatMap_map]
  simp only [hrankings, List.map_map]
  rfl

theorem fillFinite_map (f : F → F) (day : List F) :
    fillFinite day ((day.filter PyFloat.isFinite).map f) =
      day.map fun x => if PyFloat.isFinite x then f x else NumPy.nan := by
  induction day with
  | nil => rfl
  | cons x day ih =>
    by_cases hx : PyFloat.isFinite x = true
    · simp [fillFinite, hx, ih]
    · simp [fillFinite, hx, ih]

/-- The finite places hold the ranks, in their order. -/
theorem zip_fillFinite {day ranks : List F} (h : ranks.length = (day.filter PyFloat.isFinite).length) :
    (day.zip (fillFinite day ranks)).filter (fun e => PyFloat.isFinite e.1) =
      (day.filter PyFloat.isFinite).zip ranks := by
  induction day generalizing ranks with
  | nil => rfl
  | cons x day ih =>
    by_cases hx : PyFloat.isFinite x = true
    · rw [List.filter_cons_of_pos hx, List.length_cons] at h
      cases ranks with
      | nil => cases h
      | cons rank ranks =>
        have hrest := ih (Nat.succ.inj h)
        simp [fillFinite, hx, hrest]
    · rw [List.filter_cons_of_neg hx] at h
      have hrest := ih h
      simp [fillFinite, hx, hrest]

end

section Arithmetic
variable {K : Type} [PyFloat K] [PySqrt K]

/-- Numbers by their values, of which the quotients of the whole numbers below `n` are told apart. -/
structure Graded (value : K → ℚ) (n : ℕ) : Prop where
  injective : Function.Injective value
  lt_iff : ∀ a b : K, a < b ↔ value a < value b
  le_iff : ∀ a b : K, a ≤ b ↔ value a ≤ value b
  finite : ∀ a : K, PyFloat.isFinite a = true
  zero : value 0 = 0
  one : value 1 = 1
  ofInt : ∀ i : ℕ, i < n → value (PyFloat.ofInt i) = i
  ne_zero : ∀ m : ℕ, 0 < m → m < n → ((PyFloat.ofInt m : K) == 0) = false
  ratio_lt : ∀ i j m : ℕ, i < j → j ≤ m → m < n →
    value (PyFloat.ofInt i / PyFloat.ofInt m) < value (PyFloat.ofInt j / PyFloat.ofInt m)
  ratio_zero : ∀ m : ℕ, 0 < m → m < n → value (PyFloat.ofInt (0 : ℕ) / PyFloat.ofInt m) = 0
  ratio_one : ∀ m : ℕ, 0 < m → m < n → value (PyFloat.ofInt m / PyFloat.ofInt m) = 1

variable {value : K → ℚ} {argsort : List (Flt K) → List ℕ} {xs : List (Flt K)}

/-- The number a value is sorted by. -/
def sortKey (value : K → ℚ) : Flt K → ℚ
  | .num x => value x
  | .nan => 0

theorem Graded.le_iff_key (h : Graded value n) {x y : Flt K} (hx : PyFloat.isFinite x = true)
    (hy : PyFloat.isFinite y = true) : x ≤ y ↔ sortKey value x ≤ sortKey value y := by
  cases x with
  | nan => cases hx
  | num x =>
    cases y with
    | nan => cases hy
    | num y => exact h.le_iff x y

theorem Graded.key_injective (h : Graded value n) {x y : Flt K} (hx : PyFloat.isFinite x = true)
    (hy : PyFloat.isFinite y = true) (hkey : sortKey value x = sortKey value y) : x = y := by
  cases x with
  | nan => cases hx
  | num x =>
    cases y with
    | nan => cases hy
    | num y => exact congrArg Flt.num (h.injective hkey)

theorem Sorts.places (h : Sorts argsort) (hgraded : Graded value n)
    (hfinite : ∀ x ∈ xs, PyFloat.isFinite x = true) : SortsPlaces (sortKey value) (argsort xs) xs where
  perm := h.perm xs
  sorted := by
    refine (h.sorted xs hfinite).imp ?_
    intro i j hij x hx y hy
    exact (hgraded.le_iff_key (hfinite x (List.mem_of_getElem? hx))
      (hfinite y (List.mem_of_getElem? hy))).mp (hij x hx y hy)

/-- Sorting the places of a sort gives every entry its rank. -/
theorem Sorts.order_spec {e r : ℕ} (h : Sorts argsort) (hgraded : Graded value n)
    (hfinite : ∀ x ∈ xs, PyFloat.isFinite x = true) (hn : xs.length ≤ n)
    (hr : (argsort ((argsort xs).map fun i => (lit i : Flt K)))[e]? = some r) :
    (argsort xs)[r]? = some e := by
  set places := argsort xs with hplaces
  have hsort := h.places hgraded hfinite
  have hlits : ∀ y ∈ places.map fun i => (lit i : Flt K), PyFloat.isFinite y = true := by
    intro y hy
    obtain ⟨i, -, rfl⟩ := List.mem_map.mp hy
    exact hgraded.finite _
  have hsort' := h.places hgraded hlits
  have hvalue : ∀ i ∈ places, sortKey value (lit i : Flt K) = i := by
    intro i hi
    have hlt := List.mem_range.mp (hsort.perm.mem_iff.mp hi)
    exact hgraded.ofInt i (by omega)
  have hkeys : ((places.map fun i => (lit i : Flt K)).map (sortKey value)).Nodup := by
    rw [List.map_map]
    have hcast : places.map (sortKey value ∘ fun i => (lit i : Flt K)) =
        places.map (Nat.cast : ℕ → ℚ) :=
      List.map_congr_left hvalue
    rw [hcast]
    exact hsort.nodup.map Nat.cast_injective
  have hlt := hsort'.lt hr
  rw [List.length_map] at hlt
  obtain ⟨m, hm⟩ : ∃ m, places[r]? = some m := ⟨_, List.getElem?_eq_getElem hlt⟩
  have hlit : (places.map fun i => (lit i : Flt K))[r]? = some (lit m) := by
    rw [List.getElem?_map, hm, Option.map_some]
  have hrank := hsort'.rank_eq hkeys hr hlit
  have hmem : m ∈ places := List.mem_of_getElem? hm
  have hcount : places.countP (fun i => i < m) = e := by
    rw [← hrank, List.countP_map]
    apply List.countP_congr
    intro i hi
    simp [hvalue i hi, hvalue m hmem]
  have hrange : (List.range xs.length).countP (fun i => i < m) = m := by
    have hmlt := hsort.lt hm
    have hpairs : (List.range xs.length).Pairwise fun a b => id a < id b := List.pairwise_lt_range
    exact countP_lt_of_pairwise hpairs (by simp [hmlt])
  rw [hsort.perm.countP_eq, hrange] at hcount
  rw [hm, hcount]

/-- The order the percentiles are made of. -/
def rankOrder (argsort : List (Flt K) → List ℕ) (xs : List (Flt K)) : List ℕ :=
  argsort ((argsort xs).map fun i => lit i)

theorem Sorts.rankOrder_perm (h : Sorts argsort) (xs : List (Flt K)) :
    (rankOrder argsort xs).Perm (List.range xs.length) := by
  have hperm := h.perm ((argsort xs).map fun i => (lit i : Flt K))
  rwa [List.length_map, (h.perm xs).length_eq, List.length_range] at hperm

/-- Of distinct values, the rank counts the values below. -/
theorem Sorts.rankOrder_eq (h : Sorts argsort) (hgraded : Graded value n)
    (hfinite : ∀ x ∈ xs, PyFloat.isFinite x = true) (hn : xs.length ≤ n) (hxs : xs.Nodup) :
    rankOrder argsort xs =
      xs.map fun x => xs.countP fun y => decide (sortKey value y < sortKey value x) := by
  have hkeys : (xs.map (sortKey value)).Nodup := by
    apply List.Nodup.map_on _ hxs
    intro x hx y hy hkey
    exact hgraded.key_injective (hfinite x hx) (hfinite y hy) hkey
  have hlength : (rankOrder argsort xs).length = xs.length := by
    rw [(h.rankOrder_perm xs).length_eq, List.length_range]
  apply List.ext_getElem
  · rw [hlength, List.length_map]
  · intro e he he'
    rw [List.length_map] at he'
    have hplace := h.order_spec hgraded hfinite hn (List.getElem?_eq_getElem he)
    have hrank := (h.places hgraded hfinite).rank_eq hkeys hplace (List.getElem?_eq_getElem he')
    rw [List.getElem_map, hrank]

/-- The percentile of a value among distinct ones. -/
def percentile (value : K → ℚ) (finite : List (Flt K)) (x : Flt K) : Flt K :=
  if finite.length < 2 then NumPy.nan
  else if PyFloat.isFinite x then
    lit (finite.countP fun y => decide (sortKey value y < sortKey value x)) / lit (finite.length - 1)
  else NumPy.nan

theorem finite_of_mem {day : List (Flt K)} : ∀ x ∈ day.filter PyFloat.isFinite, PyFloat.isFinite x = true :=
  fun _ hx => (List.mem_filter.mp hx).2

theorem percentileRanksBy_eq {day : List (Flt K)} (h : Sorts argsort) (hgraded : Graded value n)
    (hn : day.length ≤ n) (hday : (day.filter PyFloat.isFinite).Nodup) :
    percentileRanksBy argsort day = day.map (percentile value (day.filter PyFloat.isFinite)) := by
  have hlength : (day.filter PyFloat.isFinite).length ≤ n := (List.length_filter_le ..).trans hn
  unfold percentileRanksBy percentile
  by_cases hfew : (day.filter PyFloat.isFinite).length < 2
  · simp only [if_pos hfew]
  · simp only [if_neg hfew]
    have horder := h.rankOrder_eq hgraded finite_of_mem hlength hday
    unfold rankOrder at horder
    rw [horder, List.map_map]
    exact fillFinite_map _ day

theorem Graded.div (h : Graded value n) {i m : ℕ} (hm : 0 < m) (hn : m < n) :
    (lit i / lit m : Flt K) = .num (PyFloat.ofInt i / PyFloat.ofInt m) := by
  change (if (PyFloat.ofInt m : K) == 0 then Flt.nan else .num (PyFloat.ofInt i / PyFloat.ofInt m)) = _
  rw [h.ne_zero m hm hn]
  rfl

theorem Graded.ratio_le (h : Graded value n) {i j m : ℕ} (hij : i ≤ j) (hjm : j ≤ m) (hm : 0 < m)
    (hn : m < n) : (lit i / lit m : Flt K) ≤ lit j / lit m := by
  rw [h.div hm hn, h.div hm hn]
  refine (h.le_iff _ _).mpr ?_
  rcases Nat.lt_or_eq_of_le hij with hlt | rfl
  · exact (h.ratio_lt i j m hlt hjm hn).le
  · exact le_rfl

theorem Graded.ratio_mem (h : Graded value n) {i m : ℕ} (him : i ≤ m) (hm : 0 < m) (hn : m < n) :
    0 ≤ (lit i / lit m : Flt K) ∧ (lit i / lit m : Flt K) ≤ 1 := by
  have hlow := h.ratio_le (Nat.zero_le i) him hm hn
  have hhigh := h.ratio_le him le_rfl hm hn
  rw [h.div hm hn, h.div hm hn] at hlow hhigh
  have hlow' := (h.le_iff _ _).mp hlow
  have hhigh' := (h.le_iff _ _).mp hhigh
  rw [h.ratio_zero m hm hn] at hlow'
  rw [h.ratio_one m hm hn] at hhigh'
  rw [h.div hm hn]
  constructor
  · exact (h.le_iff _ _).mpr (h.zero.trans_le hlow')
  · exact (h.le_iff _ _).mpr (hhigh'.trans_eq h.one.symm)

theorem Graded.ratio_ne (h : Graded value n) {i j m : ℕ} (hij : i ≠ j) (hi : i ≤ m) (hj : j ≤ m)
    (hm : 0 < m) (hn : m < n) : (lit i / lit m : Flt K) ≠ lit j / lit m := by
  rw [h.div hm hn, h.div hm hn]
  intro heq
  have hvalue := congrArg value (Flt.num.inj heq)
  rcases lt_or_gt_of_ne hij with hlt | hgt
  · exact absurd hvalue (h.ratio_lt i j m hlt hj hn).ne
  · exact absurd hvalue (h.ratio_lt j i m hgt hi hn).ne'

theorem percentile_of_finite {finite : List (Flt K)} {x : Flt K}
    (h : PyFloat.isFinite (percentile value finite x) = true) :
    2 ≤ finite.length ∧ PyFloat.isFinite x = true ∧ percentile value finite x =
      lit (finite.countP fun y => decide (sortKey value y < sortKey value x)) / lit (finite.length - 1) := by
  unfold percentile at h ⊢
  split at h
  · cases h
  · rename_i hmany
    split at h
    · rename_i hx
      rw [if_neg hmany, if_pos hx]
      exact ⟨not_lt.mp hmany, hx, rfl⟩
    · cases h

theorem percentile_perm {finite finite' : List (Flt K)} (h : finite'.Perm finite) (x : Flt K) :
    percentile value finite' x = percentile value finite x := by
  rw [percentile, percentile, h.length_eq, h.countP_eq]

theorem rankings_eq {loaded : List (String × Flt K)} (h : Sorts argsort) (hgraded : Graded value n)
    (hn : loaded.length ≤ n) (hvalues : (sessionValues loaded).Nodup) :
    rankings argsort loaded =
      loaded.map fun entry => ⟨entry.1, entry.2, percentile value (sessionValues loaded) entry.2⟩ := by
  rw [rankings, percentileRanksBy_eq h hgraded (by rwa [List.length_map]) hvalues, List.map_map,
    List.zipWith_map_right, List.zipWith_self]
  rfl

/-- Distinct values are ranked fairly. -/
theorem fair_of_nodup {loaded : List (String × Flt K)} (h : Sorts argsort) (hgraded : Graded value n)
    (hn : loaded.length ≤ n) (hvalues : (sessionValues loaded).Nodup) : Fair argsort loaded := by
  have hrankings := rankings_eq h hgraded hn hvalues
  have hsize : (sessionValues loaded).length ≤ n := by
    refine (List.length_filter_le ..).trans ?_
    rwa [List.length_map]
  have hcount : ∀ x ∈ sessionValues loaded,
      (sessionValues loaded).countP (fun y => decide (sortKey value y < sortKey value x)) ≤
        (sessionValues loaded).length - 1 := by
    intro x hx
    have hlt : (sessionValues loaded).countP (fun y => decide (sortKey value y < sortKey value x)) <
        (sessionValues loaded).length := by
      rw [List.countP_lt_length_iff]
      exact ⟨x, hx, by simp⟩
    omega
  have hmem : ∀ a ∈ rankings argsort loaded,
      a.percentile = percentile value (sessionValues loaded) a.value ∧
        (PyFloat.isFinite a.value = true → a.value ∈ sessionValues loaded) := by
    intro a ha
    rw [hrankings] at ha
    obtain ⟨entry, hentry, rfl⟩ := List.mem_map.mp ha
    exact ⟨rfl, fun hfinite => List.mem_filter.mpr ⟨List.mem_map_of_mem hentry, hfinite⟩⟩
  constructor
  case equal =>
    intro a ha b hb hvalue
    rw [(hmem a ha).1, (hmem b hb).1, hvalue]
  case monotone =>
    intro a ha b hb hle hfinite hfinite'
    rw [(hmem a ha).1] at hfinite ⊢
    rw [(hmem b hb).1] at hfinite' ⊢
    obtain ⟨hmany, hvalue, hpercentile⟩ := percentile_of_finite hfinite
    obtain ⟨-, hvalue', hpercentile'⟩ := percentile_of_finite hfinite'
    rw [hpercentile, hpercentile']
    have hkey := (hgraded.le_iff_key hvalue hvalue').mp hle
    refine hgraded.ratio_le (List.countP_mono_left ?_) (hcount _ ((hmem b hb).2 hvalue')) (by omega)
      (by omega)
    intro y _ hy
    exact decide_eq_true ((of_decide_eq_true hy).trans_le hkey)
  case bounded =>
    intro a ha hfinite
    rw [(hmem a ha).1] at hfinite ⊢
    obtain ⟨hmany, hvalue, hpercentile⟩ := percentile_of_finite hfinite
    rw [hpercentile]
    exact hgraded.ratio_mem (hcount _ ((hmem a ha).2 hvalue)) (by omega) (by omega)
  case given =>
    intro hmany a ha hvalue
    rw [(hmem a ha).1, percentile, if_neg (by omega), if_pos hvalue, hgraded.div (by omega) (by omega)]
    exact hgraded.finite _
  case loading =>
    intro loaded' hperm
    have hvaluesPerm : (sessionValues loaded').Perm (sessionValues loaded) :=
      (hperm.map Prod.snd).filter _
    rw [hrankings, rankings_eq h hgraded (hperm.length_eq.trans_le hn)
      (hvaluesPerm.nodup_iff.mpr hvalues)]
    simp only [percentile_perm hvaluesPerm]
    exact hperm.map _

/-- Equal values get unequal percentiles. -/
theorem nodup_of_fair {loaded : List (String × Flt K)} (h : Sorts argsort) (hgraded : Graded value n)
    (hn : loaded.length ≤ n) (hfair : Fair argsort loaded) : (sessionValues loaded).Nodup := by
  have hsize : (sessionValues loaded).length ≤ n := by
    refine (List.length_filter_le ..).trans ?_
    rwa [List.length_map]
  rw [List.nodup_iff_getElem?_ne_getElem?]
  intro i j hij hj hsame
  obtain ⟨x, hx⟩ : ∃ x, (sessionValues loaded)[j]? = some x := ⟨_, List.getElem?_eq_getElem hj⟩
  have horder := h.rankOrder_perm (sessionValues loaded)
  have hlength : (rankOrder argsort (sessionValues loaded)).length = (sessionValues loaded).length := by
    rw [horder.length_eq, List.length_range]
  set m := (sessionValues loaded).length - 1 with hm
  set ranks : List (Flt K) := (rankOrder argsort (sessionValues loaded)).map fun r => lit r / lit m
    with hranks
  have hfill : percentileRanksBy argsort (loaded.map Prod.snd) =
      fillFinite (loaded.map Prod.snd) ranks := by
    unfold percentileRanksBy
    rw [if_neg]
    · rfl
    · change ¬(sessionValues loaded).length < 2
      omega
  have hrank : ∀ e < (sessionValues loaded).length, ∃ r, r ≤ m ∧
      (rankOrder argsort (sessionValues loaded))[e]? = some r ∧ ranks[e]? = some (lit r / lit m) := by
    intro e he
    obtain ⟨r, hr⟩ : ∃ r, (rankOrder argsort (sessionValues loaded))[e]? = some r :=
      ⟨_, List.getElem?_eq_getElem (by rwa [hlength])⟩
    refine ⟨r, ?_, hr, ?_⟩
    · have hlt := List.mem_range.mp (horder.mem_iff.mp (List.mem_of_getElem? hr))
      omega
    · rw [hranks, List.getElem?_map, hr, Option.map_some]
  have hmem : ∀ (e : ℕ) (p : Flt K), (sessionValues loaded)[e]? = some x → ranks[e]? = some p →
      ∃ a ∈ rankings argsort loaded, a.value = x ∧ a.percentile = p := by
    intro e p he hp
    have hzip : (x, p) ∈ (loaded.map Prod.snd).zip (fillFinite (loaded.map Prod.snd) ranks) := by
      have hfilter : ((loaded.map Prod.snd).zip (fillFinite (loaded.map Prod.snd) ranks)).filter
          (fun e => PyFloat.isFinite e.1) =
            ((loaded.map Prod.snd).filter PyFloat.isFinite).zip ranks := by
        apply zip_fillFinite
        rw [hranks, List.length_map]
        exact hlength
      have hpair : (x, p) ∈ (sessionValues loaded).zip ranks :=
        List.mem_of_getElem? (List.getElem?_zip_eq_some.mpr ⟨he, hp⟩)
      rw [sessionValues, ← hfilter] at hpair
      exact List.mem_of_mem_filter hpair
    obtain ⟨k, hk⟩ := List.mem_iff_getElem?.mp hzip
    obtain ⟨hvalue, hpercentile⟩ := List.getElem?_zip_eq_some.mp hk
    rw [List.getElem?_map, Option.map_eq_some_iff] at hvalue
    obtain ⟨entry, hentry, rfl⟩ := hvalue
    refine ⟨⟨entry.1, entry.2, p⟩, List.mem_of_getElem? (i := k) ?_, rfl, rfl⟩
    rw [rankings, hfill, List.getElem?_zipWith, hentry, hpercentile]
  obtain ⟨r, hr, hrank_i, hrank_i'⟩ := hrank i (by omega)
  obtain ⟨r', hr', hrank_j, hrank_j'⟩ := hrank j hj
  obtain ⟨a, ha, hvalue, hpercentile⟩ := hmem i _ (hsame.trans hx) hrank_i'
  obtain ⟨b, hb, hvalue', hpercentile'⟩ := hmem j _ hx hrank_j'
  have hequal := hfair.equal a ha b hb (hvalue.trans hvalue'.symm)
  rw [hpercentile, hpercentile'] at hequal
  refine hgraded.ratio_ne ?_ hr hr' (by omega) (by omega) hequal
  rintro rfl
  have hnodup : (rankOrder argsort (sessionValues loaded)).Nodup :=
    horder.nodup_iff.mpr List.nodup_range
  have hplace := (List.getElem?_inj (by rw [hlength]; omega) hnodup).mp (hrank_i.trans hrank_j.symm)
  omega

end Arithmetic

theorem graded_rat (n : ℕ) : Graded (fun q : ℚ => q) n where
  injective := Function.injective_id
  lt_iff _ _ := Iff.rfl
  le_iff _ _ := Iff.rfl
  finite _ := rfl
  zero := rfl
  one := rfl
  ofInt i _ := Int.cast_natCast i
  ne_zero m hm _ := by
    rw [rat_ofInt, Int.cast_natCast]
    exact beq_eq_false_iff_ne.mpr (Nat.cast_ne_zero.mpr hm.ne')
  ratio_lt i j m hij hjm _ := by
    have hm : (0 : ℚ) < m := by exact_mod_cast (show 0 < m by omega)
    have hlt : (i : ℚ) < j := by exact_mod_cast hij
    simp only [rat_ofInt, Int.cast_natCast]
    exact (div_lt_div_iff_of_pos_right hm).mpr hlt
  ratio_zero m _ _ := by
    simp only [rat_ofInt, Int.cast_natCast, Nat.cast_zero]
    exact zero_div _
  ratio_one m hm _ := by
    simp only [rat_ofInt, Int.cast_natCast]
    exact div_self (Nat.cast_ne_zero.mpr hm.ne')

theorem ofInt_binary64 {i : ℕ} (hi : i < 2 ^ 53) : (PyFloat.ofInt i : Binary64) = ⟨i⟩ := by
  have hofRat := Binary64.ofRat_intCast (n := i) (by rw [Nat.abs_cast]; exact_mod_cast hi.le)
  rw [Int.cast_natCast] at hofRat
  exact hofRat

theorem ratio_binary64 {i m : ℕ} (hi : i < 2 ^ 53) (hm : m < 2 ^ 53) :
    (PyFloat.ofInt i / PyFloat.ofInt m : Binary64).value = roundBinary64 (i / m) := by
  rw [ofInt_binary64 hi, ofInt_binary64 hm]
  rfl

theorem graded_binary64 : Graded Binary64.value (2 ^ 53) where
  injective a b h := by
    cases a
    cases b
    exact congrArg Binary64.mk h
  lt_iff _ _ := Iff.rfl
  le_iff _ _ := Iff.rfl
  finite _ := rfl
  zero := rfl
  one := rfl
  ofInt i hi := by rw [ofInt_binary64 hi]
  ne_zero m hm hn := by
    rw [ofInt_binary64 hn]
    change ((m : ℚ) == 0) = false
    exact beq_eq_false_iff_ne.mpr (Nat.cast_ne_zero.mpr hm.ne')
  ratio_lt i j m hij hjm hn := by
    rw [ratio_binary64 (by omega) hn, ratio_binary64 (by omega) hn]
    have hm : (0 : ℚ) < m := by exact_mod_cast (show 0 < m by omega)
    have hn' : (m : ℚ) < 2 ^ 53 := by exact_mod_cast hn
    have hstep : (i : ℚ) + 1 ≤ j := by exact_mod_cast hij
    have htop : (j : ℚ) ≤ m := by exact_mod_cast hjm
    refine roundBinary64_lt (by positivity) ((div_le_one hm).mpr htop) ?_
    calc (i : ℚ) / m + 1 / 2 ^ 53 < i / m + 1 / m := by gcongr
      _ = (i + 1) / m := (add_div ..).symm
      _ ≤ j / m := by gcongr
  ratio_zero m hm hn := by
    rw [ratio_binary64 (by decide) hn, Nat.cast_zero, zero_div, isDouble_zero.round_eq]
  ratio_one m hm hn := by
    rw [ratio_binary64 hn hn, div_self (Nat.cast_ne_zero.mpr hm.ne'), roundBinary64_one]

/-- Sorting the values of a session with their places sorts the places. -/
theorem sorts_argsort {K : Type} [PyFloat K] [PySqrt K] {value : K → ℚ} (hgraded : Graded value n) :
    Sorts (NumPy.argsort : List (Flt K) → List ℕ) where
  perm xs := by
    have hperm := (pySorted_perm (fun a b : Flt K × ℕ => decide (Flt.holds (· < ·) a.1 b.1))
      xs.zipIdx).map Prod.snd
    rwa [List.zipIdx_map_snd, ← List.range_eq_range'] at hperm
  sorted xs hfinite := by
    obtain ⟨ks, rfl⟩ : ∃ ks : List K, xs = ks.map Flt.num := by
      induction xs with
      | nil => exact ⟨[], rfl⟩
      | cons x xs ih =>
        obtain ⟨ks, rfl⟩ := ih fun y hy => hfinite y (List.mem_cons_of_mem _ hy)
        cases x with
        | nan => cases hfinite .nan (List.mem_cons_self ..)
        | num k => exact ⟨k :: ks, rfl⟩
    have hsorted : (pySorted (fun a b : K × ℕ => decide (a.1 < b.1)) ks.zipIdx).Pairwise
        fun a b => value a.1 ≤ value b.1 :=
      pySorted_pairwise (fun a b => decide_eq_decide.mpr (hgraded.lt_iff a.1 b.1)) ks.zipIdx
    have hargsort : (NumPy.argsort (ks.map Flt.num) : List ℕ) =
        (pySorted (fun a b : K × ℕ => decide (a.1 < b.1)) ks.zipIdx).map Prod.snd := by
      have hmap : pySorted (fun a b : Flt K × ℕ => decide (Flt.holds (· < ·) a.1 b.1))
          (ks.zipIdx.map (Prod.map Flt.num id)) =
            (pySorted (fun a b : K × ℕ => decide (a.1 < b.1)) ks.zipIdx).map
              (Prod.map Flt.num id) := pySorted_map (fun _ _ => rfl) ks.zipIdx
      rw [List.map_zipIdx] at hmap
      change (pySorted (fun a b : Flt K × ℕ => decide (Flt.holds (· < ·) a.1 b.1))
        (ks.map Flt.num).zipIdx).map Prod.snd = _
      rw [hmap, List.map_map]
      rfl
    rw [hargsort, List.pairwise_map]
    refine hsorted.imp_of_mem ?_
    intro a b ha hb hle x hx y hy
    have hplace : ∀ e ∈ pySorted (fun a b : K × ℕ => decide (a.1 < b.1)) ks.zipIdx,
        (ks.map Flt.num)[e.2]? = some (.num e.1) := by
      intro e he
      rw [List.getElem?_map, List.mem_zipIdx_iff_getElem?.mp ((mem_pySorted _).mp he), Option.map_some]
    obtain rfl : Flt.num a.1 = x := Option.some.inj ((hplace a ha).symm.trans hx)
    obtain rfl : Flt.num b.1 = y := Option.some.inj ((hplace b hb).symm.trans hy)
    exact (hgraded.le_iff a.1 b.1).mpr hle

/-- A session is ranked fairly exactly when no two of its numbers are equal. -/
theorem percentiles_fair_iff (loaded : List (String × Flt ℚ)) (doubles : List (String × Flt Binary64)) :
    (∀ argsort, Sorts argsort → (Fair argsort loaded ↔ (sessionValues loaded).Nodup)) ∧
    ∀ argsort, Sorts argsort → doubles.length ≤ 2 ^ 53 →
      (Fair argsort doubles ↔ (sessionValues doubles).Nodup) := by
  constructor
  · intro argsort h
    have hgraded := graded_rat loaded.length
    exact ⟨nodup_of_fair h hgraded le_rfl, fair_of_nodup h hgraded le_rfl⟩
  · intro argsort h hn
    exact ⟨nodup_of_fair h graded_binary64 hn, fair_of_nodup h graded_binary64 hn⟩

/-- Two tickers with the same value do not share a percentile. -/
theorem equal_values_apart : ¬∀ loaded : List (String × Flt ℚ), Fair NumPy.argsort loaded := by
  intro h
  have hnodup := nodup_of_fair (sorts_argsort (graded_rat 2)) (graded_rat 2) le_rfl
    (h [("005930", .num 5), ("000660", .num 5)])
  have hvalues : sessionValues [("005930", (.num 5 : Flt ℚ)), ("000660", .num 5)] = [.num 5, .num 5] := rfl
  rw [hvalues] at hnodup
  exact absurd hnodup (by decide)

end QuantAgent.Features
