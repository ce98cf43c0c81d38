import QuantAgent.WalkForward.Metrics
import QuantAgent.WalkForward.Windows

namespace QuantAgent.WalkForward
set_option autoImplicit true

/-- The sessions of the engine run a fold selects its candidate by. -/
def WalkForwardFold.selectionSessions (fold : WalkForwardFold) : List String :=
  fold.warmupSessions ++ fold.trainSessions ++ fold.validationSessions

/-- Equities of a run, one for each session, of which none is zero. -/
structure EquityCurve (sessions : List String) where
  values : List (Flt Binary64)
  length_values : values.length = sessions.length
  nonzero : ∀ value ∈ values, (value != 0) = true

/-- Every candidate of the fold is ranked by all returns of its run from some return on. -/
def RanksFrom (fold : WalkForwardFold) (first : ℕ) : Prop :=
  ∀ curve : EquityCurve fold.selectionSessions,
    let returns := (nativeReturnsFromEquityCurve curve.values).drop first
    candidateRank curve.values = .ok (rankOf returns returns)

/-- Two candidates that do the same until the validation starts can be ranked apart. -/
def ValidationCounts (fold : WalkForwardFold) : Prop :=
  ∃ curve curve' : EquityCurve fold.selectionSessions,
    curve.values.take (fold.warmupSessions.length + fold.trainSessions.length) =
      curve'.values.take (fold.warmupSessions.length + fold.trainSessions.length) ∧
    candidateRank curve.values ≠ candidateRank curve'.values

theorem nativeReturns_cons (a b : Flt Binary64) (values : List (Flt Binary64))
    (ha : (a != 0) = true) :
    nativeReturnsFromEquityCurve (a :: b :: values) =
      (b / a - 1) :: nativeReturnsFromEquityCurve (b :: values) := by
  simp [nativeReturnsFromEquityCurve, ha]

theorem length_nativeReturns {values : List (Flt Binary64)}
    (h : ∀ value ∈ values, (value != 0) = true) :
    (nativeReturnsFromEquityCurve values).length = values.length - 1 := by
  induction values with
  | nil => rfl
  | cons a values ih =>
    cases values with
    | nil => rfl
    | cons b values =>
      rw [nativeReturns_cons a b values (h a (List.mem_cons_self ..)), List.length_cons,
        ih fun value hvalue => h value (List.mem_cons_of_mem _ hvalue)]
      simp

/-- The first returns are those of the first equities. -/
theorem take_nativeReturns {values : List (Flt Binary64)}
    (h : ∀ value ∈ values, (value != 0) = true) (k : ℕ) :
    (nativeReturnsFromEquityCurve values).take k =
      nativeReturnsFromEquityCurve (values.take (k + 1)) := by
  induction values generalizing k with
  | nil => simp [nativeReturnsFromEquityCurve]
  | cons a values ih =>
    cases values with
    | nil => simp [nativeReturnsFromEquityCurve]
    | cons b values =>
      have ha := h a (List.mem_cons_self ..)
      rw [nativeReturns_cons a b values ha]
      cases k with
      | zero => simp [nativeReturnsFromEquityCurve]
      | succ k =>
        rw [List.take_succ_cons, ih (fun value hvalue => h value (List.mem_cons_of_mem _ hvalue)),
          List.take_succ_cons, List.take_succ_cons, List.take_succ_cons, nativeReturns_cons a b _ ha]

/-- Equities of one, and from some session on of two. -/
def doubling (ones twos : ℕ) : List (Flt Binary64) :=
  List.replicate ones (.whole 1) ++ List.replicate twos (.whole 2)

theorem doubling_nonzero : ∀ value ∈ doubling ones twos, (value != 0) = true := by
  intro value hvalue
  rcases List.mem_append.mp hvalue with hvalue | hvalue
  · rw [List.eq_of_mem_replicate hvalue]
    decide
  · rw [List.eq_of_mem_replicate hvalue]
    decide

theorem length_doubling : (doubling ones twos).length = ones + twos := by
  rw [doubling, List.length_append, List.length_replicate, List.length_replicate]

/-- The return between two equities is of their quotient. -/
theorem whole_return {m n k : ℤ} (hn : n ≠ 0) (hk : m = (k + 1) * n) (h : |k + 1| ≤ 2 ^ 53)
    (h' : |k| ≤ 2 ^ 53) : (Flt.whole m / Flt.whole n - 1 : Flt Binary64) = .whole k := by
  rw [Flt.whole_div hn hk h, ← Flt.whole_one, Flt.whole_sub (by rwa [add_sub_cancel_right]),
    add_sub_cancel_right]

theorem nativeReturns_constant {m : ℤ} (hm : (Flt.whole m != 0) = true) (hm' : m ≠ 0) (k : ℕ) :
    nativeReturnsFromEquityCurve (List.replicate (k + 1) (Flt.whole m)) =
      List.replicate k (Flt.whole 0) := by
  have hflat := whole_return (k := 0) hm' (by ring) (by decide) (by decide)
  induction k with
  | zero => rfl
  | succ k ih =>
    rw [List.replicate_succ, List.replicate_succ, nativeReturns_cons _ _ _ hm, hflat,
      ← List.replicate_succ, ih, ← List.replicate_succ]

theorem nativeReturns_doubling (ones twos : ℕ) :
    nativeReturnsFromEquityCurve (doubling (ones + 1) (twos + 1)) =
      List.replicate ones (Flt.whole 0) ++ Flt.whole 1 :: List.replicate twos (Flt.whole 0) := by
  have hone : (Flt.whole 1 != 0) = true := by decide
  induction ones with
  | zero =>
    have hdouble := whole_return (m := 2) (n := 1) (k := 1) (by decide) (by decide) (by decide)
      (by decide)
    have hrest := nativeReturns_constant (m := 2) (by decide) (by decide) twos
    rw [doubling, List.replicate_succ, List.replicate_zero, List.replicate_succ, List.cons_append,
      List.nil_append, nativeReturns_cons _ _ _ hone, hdouble, ← List.replicate_succ, hrest]
    rfl
  | succ ones ih =>
    have hflat := whole_return (m := 1) (n := 1) (k := 0) (by decide) (by decide) (by decide)
      (by decide)
    rw [doubling, List.replicate_succ, List.replicate_succ, List.cons_append, List.cons_append,
      nativeReturns_cons _ _ _ hone, hflat, ← List.cons_append, ← List.replicate_succ, ← doubling,
      ih, List.replicate_succ, List.cons_append]

/-- Flat days keep what the days before them have made of the stake. -/
theorem foldl_flat (k : ℕ) {m : ℤ} (hm : |m| ≤ 2 ^ 53) :
    ((List.replicate k (Flt.whole 0)).map fun dailyReturn => Flt.whole 1 + dailyReturn).foldl (· * ·)
      (Flt.whole m) = Flt.whole m := by
  have hstep : Flt.whole m * (Flt.whole 1 + Flt.whole 0) = Flt.whole m := by
    rw [Flt.whole_add (by decide), add_zero, Flt.whole_mul (by rwa [mul_one]), mul_one]
  induction k with
  | zero => rfl
  | succ k ih => rw [List.replicate_succ, List.map_cons, List.foldl_cons, hstep, ih]

theorem compoundReturns_flat (k : ℕ) :
    compoundReturns (List.replicate k (Flt.whole 0)) = Flt.whole 0 := by
  rw [compoundReturns, ← Flt.whole_one, foldl_flat k (by decide), Flt.whole_sub (by decide), sub_self]

theorem compoundReturns_jump (j k : ℕ) :
    compoundReturns (List.replicate j (Flt.whole 0) ++ Flt.whole 1 :: List.replicate k (Flt.whole 0)) =
      Flt.whole 1 := by
  have hjump : Flt.whole 1 * (Flt.whole 1 + Flt.whole 1) = Flt.whole 2 := by
    rw [Flt.whole_add (by decide), Flt.whole_mul (by decide)]
    rfl
  rw [compoundReturns, ← Flt.whole_one, List.map_append, List.map_cons, List.foldl_append,
    foldl_flat j (by decide), List.foldl_cons, hjump, foldl_flat k (by decide),
    Flt.whole_sub (by decide)]
  rfl

/-- Ranks that agree have the same return, and a flat run has none. -/
theorem rank_ne {sharpeReturns sharpeReturns' returns returns' : List (Flt Binary64)}
    (hflat : compoundReturns returns = Flt.whole 0) (hjump : compoundReturns returns' = Flt.whole 1) :
    rankOf sharpeReturns returns ≠ rankOf sharpeReturns' returns' := by
  intro heq
  have hreturn := congrArg CandidateRank.inSampleReturn heq
  simp only [rankOf] at hreturn
  rw [hflat, hjump, Flt.round_whole (by decide), Flt.round_whole (by decide)] at hreturn
  exact absurd hreturn (by decide)

theorem candidateRank_eq {values : List (Flt Binary64)} (hn : values.length = n + 5)
    (h : ∀ value ∈ values, (value != 0) = true) (hindex : splitIndex (Flt Binary64) (n + 4) = .ok index) :
    candidateRank values = .ok (rankOf ((nativeReturnsFromEquityCurve values).take index)
      ((nativeReturnsFromEquityCurve values).take index)) := by
  have hlength : (nativeReturnsFromEquityCurve values).length = n + 4 := by
    rw [length_nativeReturns h, hn]
    rfl
  have hmany : ¬n + 4 < MIN_RETURNS_FOR_SPLIT := by
    unfold MIN_RETURNS_FOR_SPLIT
    omega
  simp only [candidateRank, hlength, hindex, if_neg hmany]
  rfl

section
variable {F : Type} [NumPy F]

theorem walkForwardPolicyFor_lead (n : ℕ) : 8 ≤ (walkForwardPolicyFor n).lead := by
  unfold walkForwardPolicyFor
  split
  · decide
  split
  · show 8 ≤ 1 + 12 + 3
    decide
  · decide

/-- A fold selects over a month and more, of which its validation is a part. -/
theorem selectionSessions_of_mem {rows : List (Features.Row F)}
    (h : fold ∈ (walkForwardSplitPolicy rows).folds) :
    0 < fold.warmupSessions.length ∧ 0 < fold.trainSessions.length ∧
      0 < fold.validationSessions.length ∧ 8 ≤ fold.selectionSessions.length := by
  have hfilled := filled_of_mem h
  simp only [WalkForwardFold.filled, Bool.and_eq_true, decide_eq_true_eq] at hfilled
  obtain ⟨⟨⟨hwarmup, htrain⟩, hvalidation⟩, -⟩ := hfilled
  refine ⟨List.length_pos_iff.mpr hwarmup, List.length_pos_iff.mpr htrain,
    List.length_pos_iff.mpr hvalidation, ?_⟩
  rw [walkForwardSplitPolicy_folds] at h
  obtain ⟨start, hstart, rfl⟩ := List.mem_map.mp h
  rw [List.mem_range] at hstart
  have hlead := walkForwardPolicyFor_lead (months rows).length
  have hmonth : ∀ month ∈ months rows, 1 ≤ (sessionsByMonth rows month).length :=
    fun _ hmonth => List.length_pos_iff.mpr (sessionsByMonth_ne_nil hmonth)
  have hspan : (windowOf rows).lead = (windowOf rows).warmupMonths + (windowOf rows).trainMonths +
    (windowOf rows).validationMonths := rfl
  have hwarmups := le_length_slice_flatMap hmonth
    (show start + (windowOf rows).warmupMonths ≤ (months rows).length by omega)
  have htrains := le_length_slice_flatMap hmonth (show start + (windowOf rows).warmupMonths +
    (windowOf rows).trainMonths ≤ (months rows).length by omega)
  have hvalidations := le_length_slice_flatMap hmonth (show start + (windowOf rows).warmupMonths +
    (windowOf rows).trainMonths + (windowOf rows).validationMonths ≤ (months rows).length by omega)
  simp only [WalkForwardFold.selectionSessions, foldAt, List.length_append]
  unfold windowOf at *
  omega

end

section Selection
variable {fold : WalkForwardFold}

/-- A run of the fold that doubles its equity after some session. -/
def doublingRun (ones twos : ℕ) (h : ones + twos = fold.selectionSessions.length) :
    EquityCurve fold.selectionSessions where
  values := doubling ones twos
  length_values := length_doubling.trans h
  nonzero := doubling_nonzero

theorem candidateRank_run (h : 8 ≤ fold.selectionSessions.length) :
    ∃ index, splitIndex (Flt Binary64) (fold.selectionSessions.length - 1) = .ok index ∧
      4 * index ≤ 3 * (fold.selectionSessions.length - 1) ∧
      ∀ curve : EquityCurve fold.selectionSessions, candidateRank curve.values =
        .ok (rankOf ((nativeReturnsFromEquityCurve curve.values).take index)
          ((nativeReturnsFromEquityCurve curve.values).take index)) := by
  obtain ⟨index, hindex, hpos, hle⟩ := splitIndex_le (fold.selectionSessions.length - 1)
  refine ⟨index, hindex, by omega, ?_⟩
  intro curve
  obtain ⟨n, hn⟩ := Nat.exists_eq_add_of_le' (show 5 ≤ fold.selectionSessions.length by omega)
  rw [hn] at hindex
  exact candidateRank_eq (curve.length_values.trans hn) curve.nonzero hindex

/-- The last day of the selection never takes part. -/
theorem not_ranksFrom (h : 8 ≤ fold.selectionSessions.length)
    (hfirst : first < fold.selectionSessions.length - 1) : ¬RanksFrom fold first := by
  intro hranks
  obtain ⟨index, -, hlt, hrank⟩ := candidateRank_run h
  obtain ⟨n, hn⟩ := Nat.exists_eq_add_of_le' (show 2 ≤ fold.selectionSessions.length by omega)
  have hreturns := nativeReturns_doubling n 0
  have heq := (hrank (doublingRun (n + 1) 1 hn.symm)).symm.trans (hranks _)
  simp only [doublingRun, Except.ok.injEq] at heq
  rw [hreturns] at heq
  have hin : ((List.replicate n (Flt.whole 0) ++ Flt.whole 1 :: List.replicate 0 (Flt.whole 0)).take
      index) = List.replicate index (Flt.whole 0) := by
    rw [List.take_append_of_le_length (by rw [List.length_replicate]; omega), List.take_replicate,
      min_eq_left (by omega)]
  have hout : ((List.replicate n (Flt.whole 0) ++ Flt.whole 1 :: List.replicate 0 (Flt.whole 0)).drop
      first) = List.replicate (n - first) (Flt.whole 0) ++ Flt.whole 1 :: List.replicate 0 (Flt.whole 0) := by
    rw [List.drop_append_of_le_length (by rw [List.length_replicate]; omega), List.drop_replicate]
  rw [hin, hout] at heq
  exact rank_ne (compoundReturns_flat index) (compoundReturns_jump (n - first) 0) heq

theorem validationCounts_iff (h : 8 ≤ fold.selectionSessions.length)
    (htrain : 0 < fold.trainSessions.length) (hvalidation : 0 < fold.validationSessions.length) :
    ValidationCounts fold ↔
      ∃ index, splitIndex (Flt Binary64) (fold.selectionSessions.length - 1) = .ok index ∧
        fold.warmupSessions.length + fold.trainSessions.length ≤ index := by
  obtain ⟨index, hindex, hlt, hrank⟩ := candidateRank_run h
  have hlength : fold.selectionSessions.length =
      fold.warmupSessions.length + fold.trainSessions.length + fold.validationSessions.length := by
    rw [WalkForwardFold.selectionSessions, List.length_append, List.length_append]
  constructor
  · rintro ⟨curve, curve', hsame, hne⟩
    refine ⟨index, hindex, ?_⟩
    by_contra hshort
    have htake : curve.values.take (index + 1) = curve'.values.take (index + 1) := by
      have hmin : index + 1 =
          min (index + 1) (fold.warmupSessions.length + fold.trainSessions.length) := by omega
      rw [hmin, ← List.take_take, ← List.take_take, hsame]
    apply hne
    rw [hrank, hrank, take_nativeReturns curve.nonzero, take_nativeReturns curve'.nonzero, htake]
  · rintro ⟨index', hindex', hlong⟩
    obtain rfl : index = index' := Except.ok.inj (hindex.symm.trans hindex')
    obtain ⟨n, hn⟩ := Nat.exists_eq_add_of_le'
      (show 1 ≤ fold.warmupSessions.length + fold.trainSessions.length by omega)
    obtain ⟨v, hv⟩ := Nat.exists_eq_add_of_le' (show 1 ≤ fold.validationSessions.length from hvalidation)
    have hflatReturns := nativeReturns_constant (m := 1) (by decide) (by decide) (n + (v + 1))
    refine ⟨doublingRun (n + 1 + (v + 1)) 0 (by omega), doublingRun (n + 1) (v + 1) (by omega), ?_, ?_⟩
    · simp only [doublingRun, doubling, hn]
      rw [List.take_append_of_le_length (by simp), List.take_append_of_le_length (by simp),
        List.take_replicate, List.take_replicate]
      congr 1
      omega
    · rw [hrank, hrank]
      intro heq
      refine rank_ne ?_ ?_ (Except.ok.inj heq)
      · have hones : doubling (n + 1 + (v + 1)) 0 = List.replicate (n + (v + 1) + 1) (Flt.whole 1) := by
          rw [doubling, List.replicate_zero, List.append_nil]
          congr 1
          omega
        simp only [doublingRun]
        rw [hones, hflatReturns, List.take_replicate]
        exact compoundReturns_flat _
      · obtain ⟨k, rfl⟩ := Nat.exists_eq_add_of_le (show n + 1 ≤ index by omega)
        have htail : n + 1 + k - n = k + 1 := by omega
        simp only [doublingRun]
        rw [nativeReturns_doubling, List.take_append, List.take_replicate, List.length_replicate, htail,
          List.take_succ_cons, List.take_replicate]
        exact compoundReturns_jump _ _

end Selection

/-- No candidate of a fold is ranked by all of its train and validation days, and the validation
takes part only where the second cut leaves some of it. -/
theorem fold_selection_cut {F : Type} [NumPy F] {rows : List (Features.Row F)}
    (h : fold ∈ (walkForwardSplitPolicy rows).folds) :
    (∀ first < fold.selectionSessions.length - 1, ¬RanksFrom fold first) ∧
      (ValidationCounts fold ↔
        ∃ index, splitIndex (Flt Binary64) (fold.selectionSessions.length - 1) = .ok index ∧
          fold.warmupSessions.length + fold.trainSessions.length ≤ index) := by
  obtain ⟨-, htrain, hvalidation, hlength⟩ := selectionSessions_of_mem h
  constructor
  · intro first hfirst
    exact not_ranksFrom hlength hfirst
  · exact validationCounts_iff hlength htrain hvalidation

theorem walkForwardPolicyFor_proportions (n : ℕ) :
    3 * (23 * (walkForwardPolicyFor n).validationMonths) ≤
      21 * ((walkForwardPolicyFor n).warmupMonths + (walkForwardPolicyFor n).trainMonths) := by
  unfold walkForwardPolicyFor
  split
  · decide
  split
  · show 3 * (23 * 3) ≤ 21 * (1 + 12)
    decide
  · decide

/-- In months of 21 to 23 sessions the second cut falls before every validation. -/
theorem validation_never_counts {F : Type} [NumPy F] {rows : List (Features.Row F)}
    (h : fold ∈ (walkForwardSplitPolicy rows).folds) (hmonths : FullMonths rows)
    (hlong : ∀ month ∈ months rows, (sessionsByMonth rows month).length ≤ 23) :
    ¬ValidationCounts fold := by
  obtain ⟨-, htrain, hvalidation, hlength⟩ := selectionSessions_of_mem h
  rw [validationCounts_iff hlength htrain hvalidation]
  rintro ⟨index, hindex, hreaches⟩
  obtain ⟨index', hindex', hlt, -⟩ := candidateRank_run hlength
  obtain rfl : index' = index := Except.ok.inj (hindex'.symm.trans hindex)
  rw [walkForwardSplitPolicy_folds] at h
  obtain ⟨start, hstart, rfl⟩ := List.mem_map.mp h
  rw [List.mem_range] at hstart
  have hspan : (windowOf rows).lead = (windowOf rows).warmupMonths + (windowOf rows).trainMonths +
    (windowOf rows).validationMonths := rfl
  have hwarmups := le_length_slice_flatMap (k := 21) hmonths
    (show start + (windowOf rows).warmupMonths ≤ (months rows).length by omega)
  have htrains := le_length_slice_flatMap (k := 21) hmonths (show start + (windowOf rows).warmupMonths +
    (windowOf rows).trainMonths ≤ (months rows).length by omega)
  have hvalidations := length_slice_flatMap_le hlong
    (start + (windowOf rows).warmupMonths + (windowOf rows).trainMonths) (windowOf rows).validationMonths
  have hproportions := walkForwardPolicyFor_proportions (months rows).length
  simp only [WalkForwardFold.selectionSessions, foldAt, List.length_append] at hlt hreaches hlength
  unfold windowOf at *
  omega

section Histories

theorem fold_fullHistory : foldAt (windowOf (fullHistory 11)) (months (fullHistory 11))
    (sessionsByMonth (fullHistory 11)) 0 0 ∈ (walkForwardSplitPolicy (fullHistory 11)).folds := by
  have hmonths : (months (fullHistory 11)).length = 11 := fullHistory_months (by decide)
  rw [walkForwardSplitPolicy_folds, List.mem_map]
  refine ⟨0, ?_, rfl⟩
  rw [windowOf, hmonths, List.mem_range]
  decide

theorem fold_selection_cut_fullHistory :
    ∃ fold ∈ (walkForwardSplitPolicy (fullHistory 11)).folds,
      (∀ first < fold.selectionSessions.length - 1, ¬RanksFrom fold first) ∧
        (ValidationCounts fold ↔
          ∃ index, splitIndex (Flt Binary64) (fold.selectionSessions.length - 1) = .ok index ∧
            fold.warmupSessions.length + fold.trainSessions.length ≤ index) :=
  ⟨_, fold_fullHistory, fold_selection_cut fold_fullHistory⟩

/-- The first fold of eleven full months ranks by less than its train and validation days. -/
theorem first_fold_cut_again : ¬∀ rows : List (Features.Row (Flt ℚ)),
    ∀ fold ∈ (walkForwardSplitPolicy rows).folds, RanksFrom fold (fold.warmupSessions.length - 1) := by
  intro h
  obtain ⟨hwarmup, htrain, hvalidation, hlength⟩ := selectionSessions_of_mem fold_fullHistory
  refine not_ranksFrom hlength ?_ (h (fullHistory 11) _ fold_fullHistory)
  rw [WalkForwardFold.selectionSessions, List.length_append, List.length_append]
  omega

end Histories
end QuantAgent.WalkForward
