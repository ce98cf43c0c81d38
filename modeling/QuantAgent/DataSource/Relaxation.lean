import QuantAgent.DataSource.Screening

namespace QuantAgent.DataSource
set_option autoImplicit true

open Rounded (ofRat ofRat_mono ofRat_nonneg)

variable {r : Rounding}

theorem atLeast_iff {left right : Numeric r} :
    atLeast left right = true ↔ ∃ x y, left = some (.num x) ∧ right = some (.num y) ∧ y ≤ x := by
  constructor
  · intro h
    match left, right, h with
    | some (.num x), some (.num y), h => exact ⟨x, y, rfl, rfl, of_decide_eq_true h⟩
  · rintro ⟨x, y, rfl, rfl, h⟩
    exact decide_eq_true h

theorem above_iff {left right : Numeric r} :
    above left right = true ↔ ∃ x y, left = some (.num x) ∧ right = some (.num y) ∧ y < x := by
  constructor
  · intro h
    match left, right, h with
    | some (.num x), some (.num y), h => exact ⟨x, y, rfl, rfl, of_decide_eq_true h⟩
  · rintro ⟨x, y, rfl, rfl, h⟩
    exact decide_eq_true h

/-- A lower bound that has fallen is still met. -/
theorem atLeast_lower {a b : Rounded r} (hab : b ≤ a) (h : atLeast left (knob a) = true) :
    atLeast left (knob b) = true := by
  obtain ⟨x, y, hx, hy, hle⟩ := atLeast_iff.mp h
  cases hy
  exact atLeast_iff.mpr ⟨x, b, hx, rfl, le_trans hab hle⟩

/-- An upper bound that has risen is still met. -/
theorem atLeast_raise {a b : Rounded r} (hab : a ≤ b) (h : atLeast (knob a) right = true) :
    atLeast (knob b) right = true := by
  obtain ⟨x, y, hx, hy, hle⟩ := atLeast_iff.mp h
  cases hx
  exact atLeast_iff.mpr ⟨b, y, rfl, hy, le_trans hle hab⟩

theorem not_above_raise {a b : Rounded r} (hab : a ≤ b) (h : above left (knob a) = false) :
    above left (knob b) = false := by
  apply Bool.eq_false_iff.mpr
  intro hb
  obtain ⟨x, y, hx, hy, hlt⟩ := above_iff.mp hb
  cases hy
  have ha : above left (knob a) = true := above_iff.mpr ⟨x, a, hx, rfl, lt_of_le_of_lt hab hlt⟩
  rw [h] at ha
  cases ha

/-- A ratio of a level that is not negative. -/
theorem atLeast_scaled_lower {a b : Rounded r} {level : Numeric r}
    (hlevel : ∀ x, level = some (.num x) → 0 ≤ x) (hab : b ≤ a)
    (h : atLeast left (scaled level a) = true) : atLeast left (scaled level b) = true := by
  obtain ⟨x, y, hx, hy, hle⟩ := atLeast_iff.mp h
  match level, hlevel, hy with
  | some (.num z), hlevel, hy =>
    cases hy
    exact atLeast_iff.mpr
      ⟨x, z * b, hx, rfl, le_trans (Rounded.mul_le_mul_left hab (hlevel z rfl)) hle⟩

/-- Every knob of the second is moved the way that lets more rows through. -/
structure ScreeningThresholds.Looser (t t' : ScreeningThresholds r) : Prop where
  high252Ratio : t'.high252Ratio ≤ t.high252Ratio
  volumeRatioMin : t'.volumeRatioMin ≤ t.volumeRatioMin
  requireCloseAboveSma20 : t'.requireCloseAboveSma20 = true → t.requireCloseAboveSma20 = true
  relativeStrength20dMin : t'.relativeStrength20dMin ≤ t.relativeStrength20dMin
  relativeStrength60dMin : t'.relativeStrength60dMin ≤ t.relativeStrength60dMin
  rsiMax : t.rsiMax ≤ t'.rsiMax
  rsiCrossFloor : t'.rsiCrossFloor = t.rsiCrossFloor
  rsiMin : t'.rsiMin ≤ t.rsiMin
  sma20Band : t.sma20Band ≤ t'.sma20Band
  bbWidthMax : t.bbWidthMax ≤ t'.bbWidthMax
  bbUpperRatio : t'.bbUpperRatio ≤ t.bbUpperRatio
  roeMin : t'.roeMin ≤ t.roeMin
  debtToEquityMax : t.debtToEquityMax ≤ t'.debtToEquityMax
  operatingMarginMin : t'.operatingMarginMin ≤ t.operatingMarginMin
  revenueGrowthMin : t'.revenueGrowthMin ≤ t.revenueGrowthMin

section
variable (parseFloat : String → Option (Flt (Rounded r)))

/-- The levels that a ratio scales are not negative. -/
def NonNegativeLevels (row : ScreeningRow r) : Prop :=
  ∀ key ∈ ["high_252", "bb_upper"], ∀ x, column parseFloat row key = some (.num x) → 0 ≤ x

variable {parseFloat} {row : ScreeningRow r} {t t' : ScreeningThresholds r}

theorem breakoutVolume_looser (hrow : NonNegativeLevels parseFloat row) (ht : t.Looser t')
    (h : breakoutVolume parseFloat t row = true) : breakoutVolume parseFloat t' row = true := by
  simp only [breakoutVolume, Bool.and_eq_true, Bool.or_eq_true, Bool.not_eq_true'] at h ⊢
  obtain ⟨⟨⟨hhigh, hvolume⟩, htrend⟩, hstrength⟩ := h
  have hlevel := hrow "high_252" (List.mem_cons_self ..)
  have htrend' : t'.requireCloseAboveSma20 = false ∨
      above (column parseFloat row "close") (column parseFloat row "sma20") = true := by
    apply htrend.imp_left
    intro hdropped
    apply Bool.eq_false_iff.mpr
    intro hrequired
    rw [ht.requireCloseAboveSma20 hrequired] at hdropped
    cases hdropped
  exact ⟨⟨⟨atLeast_scaled_lower hlevel ht.high252Ratio hhigh,
    atLeast_lower ht.volumeRatioMin hvolume⟩, htrend'⟩,
    atLeast_lower ht.relativeStrength20dMin hstrength⟩

theorem rsiRebound_looser (ht : t.Looser t') (h : rsiRebound parseFloat t row = true) :
    rsiRebound parseFloat t' row = true := by
  unfold rsiRebound at h ⊢
  cases hrsi : column parseFloat row "rsi" with
  | none =>
    rw [hrsi] at h
    cases h
  | some rsi =>
    rw [hrsi] at h
    simp only [Bool.or_eq_true] at h ⊢
    rw [ht.rsiCrossFloor]
    exact h.imp_left (atLeast_raise ht.rsiMax)

theorem pullbackTrend_looser (ht : t.Looser t') (h : pullbackTrend parseFloat t row = true) :
    pullbackTrend parseFloat t' row = true := by
  unfold pullbackTrend at h ⊢
  cases hclose : column parseFloat row "close" with
  | none =>
    rw [hclose] at h
    cases h
  | some close =>
    cases hsma : column parseFloat row "sma20" with
    | none =>
      rw [hclose, hsma] at h
      cases h
    | some sma20 =>
      rw [hclose, hsma] at h
      simp only [Bool.and_eq_true] at h ⊢
      exact ⟨h.1, atLeast_raise ht.sma20Band h.2⟩

theorem bollingerSqueeze_looser (hrow : NonNegativeLevels parseFloat row) (ht : t.Looser t')
    (h : bollingerSqueeze parseFloat t row = true) : bollingerSqueeze parseFloat t' row = true := by
  unfold bollingerSqueeze at h ⊢
  have hlevel := hrow "bb_upper" (List.mem_cons_of_mem _ (List.mem_cons_self ..))
  cases hwidth : column parseFloat row "bb_width" with
  | none =>
    rw [hwidth] at h
    cases h
  | some width =>
    rw [hwidth] at h
    simp only [Bool.and_eq_true, Bool.not_eq_true'] at h ⊢
    obtain ⟨⟨hpositive, hnarrow⟩, hupper⟩ := h
    exact ⟨⟨hpositive, not_above_raise ht.bbWidthMax hnarrow⟩,
      atLeast_scaled_lower hlevel ht.bbUpperRatio hupper⟩

theorem relativeStrength_looser (ht : t.Looser t') (h : relativeStrength parseFloat t row = true) :
    relativeStrength parseFloat t' row = true := by
  simp only [relativeStrength, Bool.and_eq_true] at h ⊢
  exact ⟨atLeast_lower ht.relativeStrength20dMin h.1, atLeast_lower ht.relativeStrength60dMin h.2⟩

theorem valueQuality_looser (ht : t.Looser t') (h : valueQuality parseFloat t row = true) :
    valueQuality parseFloat t' row = true := by
  simp only [valueQuality, Bool.and_eq_true] at h ⊢
  exact ⟨atLeast_lower ht.roeMin h.1, atLeast_raise ht.debtToEquityMax h.2⟩

theorem qualityGrowth_looser (ht : t.Looser t') (h : qualityGrowth parseFloat t row = true) :
    qualityGrowth parseFloat t' row = true := by
  simp only [qualityGrowth, Bool.and_eq_true] at h ⊢
  exact ⟨⟨atLeast_lower ht.roeMin h.1.1, atLeast_lower ht.operatingMarginMin h.1.2⟩,
    atLeast_lower ht.revenueGrowthMin h.2⟩

theorem growthMomentum_looser (ht : t.Looser t') (h : growthMomentum parseFloat t row = true) :
    growthMomentum parseFloat t' row = true := by
  simp only [growthMomentum, Bool.and_eq_true] at h ⊢
  exact ⟨atLeast_lower ht.revenueGrowthMin h.1, h.2⟩

theorem screeningMatcher_looser (profile : String) (hrow : NonNegativeLevels parseFloat row)
    (ht : t.Looser t') (h : screeningMatcher parseFloat t row profile = true) :
    screeningMatcher parseFloat t' row profile = true := by
  revert h
  unfold screeningMatcher
  split <;> intro h
  · exact breakoutVolume_looser hrow ht h
  · exact rsiRebound_looser ht h
  · exact atLeast_lower ht.rsiMin h
  · exact pullbackTrend_looser ht h
  · exact bollingerSqueeze_looser hrow ht h
  · exact relativeStrength_looser ht h
  · exact valueQuality_looser ht h
  · exact qualityGrowth_looser ht h
  · exact growthMomentum_looser ht h
  · exact h

end

theorem within_clamped {low high : ℚ} (x : Rounded r) (h : low ≤ high) :
    Within low high (clamped x low high) :=
  ⟨Rounded.low_le_clamped, Rounded.clamped_le_high (ofRat_mono h)⟩

theorem within_ofRat {low high q : ℚ} (hlow : low ≤ q) (hhigh : q ≤ high) :
    Within low high (ofRat r q) :=
  ⟨ofRat_mono hlow, ofRat_mono hhigh⟩

theorem Within.weaken {low low' high : ℚ} {x : Rounded r} (h : Within low' high x) (hlow : low ≤ low') :
    Within low high x :=
  ⟨le_trans (ofRat_mono hlow) h.1, h.2⟩

theorem stepSize_nonneg {size : ℚ} (h : 0 ≤ size) (step : ℕ) : (0 : Rounded r) ≤ stepSize size step :=
  Rounded.mul_nonneg (ofRat_nonneg h) (ofRat_nonneg (Nat.cast_nonneg step))

theorem Within.lowered {low high size : ℚ} {x : Rounded r} (h : Within low high x) (hsize : 0 ≤ size)
    (step : ℕ) : clamped (x - stepSize size step) low high ≤ x :=
  Rounded.clamped_sub_le h.1 (stepSize_nonneg hsize step)

theorem Within.raised {low high size : ℚ} {x : Rounded r} (h : Within low high x) (hsize : 0 ≤ size)
    (step : ℕ) : x ≤ clamped (x + stepSize size step) low high :=
  Rounded.le_clamped_add h.2 (stepSize_nonneg hsize step)

/-- The thresholds of the rounds, as the ladder reaches them. -/
def thresholdsAt (profile : String) : ℕ → ScreeningThresholds r
  | 0 => {}
  | k + 1 => relaxedThresholds (thresholdsAt profile k) k profile

/-- What every round's thresholds keep. -/
structure OnLadder (k : ℕ) (t : ScreeningThresholds r) : Prop where
  bounds : t.WithinBounds
  overbought : Within rsiOverboughtMin 95 t.rsiMin
  require : t.requireCloseAboveSma20 = decide (k < 2)

theorem onLadder_zero : OnLadder 0 ({} : ScreeningThresholds r) where
  bounds := by
    constructor <;> apply within_ofRat <;> norm_num
  overbought := within_ofRat (by norm_num [rsiOverboughtMin]) (by norm_num)
  require := rfl

theorem OnLadder.relaxed {t : ScreeningThresholds r} (h : OnLadder k t) (profile : String) :
    OnLadder (k + 1) (relaxedThresholds t k profile) := by
  have hoverbought : Within rsiOverboughtMin 95 (relaxedThresholds t k profile).rsiMin := by
    dsimp only [relaxedThresholds]
    split
    · exact within_clamped _ (by norm_num [rsiOverboughtMin])
    · exact h.overbought
  refine ⟨?_, hoverbought, rfl⟩
  constructor
  case rsiMax =>
    dsimp only [relaxedThresholds]
    split
    · exact h.bounds.rsiMax
    · exact within_clamped _ (by norm_num)
  case rsiCrossFloor => exact h.bounds.rsiCrossFloor
  case rsiMin => exact hoverbought.weaken (by norm_num [rsiOverboughtMin])
  all_goals exact within_clamped _ (by norm_num)

theorem onLadder_thresholdsAt (profile : String) (k : ℕ) :
    OnLadder k (thresholdsAt profile k : ScreeningThresholds r) := by
  induction k with
  | zero => exact onLadder_zero
  | succ k ih => exact ih.relaxed profile

/-- A round of the ladder moves no knob the wrong way. -/
theorem OnLadder.looser {t : ScreeningThresholds r} (h : OnLadder k t) (profile : String) :
    t.Looser (relaxedThresholds t k profile) where
  high252Ratio := h.bounds.high252Ratio.lowered (by norm_num) _
  volumeRatioMin := h.bounds.volumeRatioMin.lowered (by norm_num) _
  requireCloseAboveSma20 := by
    intro hrequired
    have hround : k + 1 < 2 := of_decide_eq_true hrequired
    rw [h.require]
    exact decide_eq_true (by omega)
  relativeStrength20dMin := h.bounds.relativeStrength20dMin.lowered (by norm_num) _
  relativeStrength60dMin := h.bounds.relativeStrength60dMin.lowered (by norm_num) _
  rsiMax := by
    dsimp only [relaxedThresholds]
    split
    · exact le_refl _
    · exact h.bounds.rsiMax.raised (by norm_num) _
  rsiCrossFloor := rfl
  rsiMin := by
    dsimp only [relaxedThresholds]
    split
    · exact h.overbought.lowered (by norm_num) _
    · exact le_refl _
  sma20Band := h.bounds.sma20Band.raised (by norm_num) _
  bbWidthMax := h.bounds.bbWidthMax.raised (by norm_num) _
  bbUpperRatio := h.bounds.bbUpperRatio.lowered (by norm_num) _
  roeMin := h.bounds.roeMin.lowered (by norm_num) _
  debtToEquityMax := h.bounds.debtToEquityMax.raised (by norm_num) _
  operatingMarginMin := h.bounds.operatingMarginMin.lowered (by norm_num) _
  revenueGrowthMin := h.bounds.revenueGrowthMin.lowered (by norm_num) _

section
variable (parseFloat : String → Option (Flt (Rounded r))) (profile : String)
  (rows : List (ScreeningRow r)) (candidate : ScreeningRow r → γ)

/-- The rows a round matches. -/
def matchedAt (k : ℕ) : List (ScreeningRow r) :=
  rows.filter fun row => screeningMatcher parseFloat (thresholdsAt profile k) row profile

/-- The loop stops at its first round with a match, or after its last one. -/
theorem relaxationLoop_first (remaining k : ℕ) (rounds : List (ScreeningRound r)) :
    (∃ n ≤ remaining, matchedAt parseFloat profile rows (k + n) ≠ [] ∧
        (∀ j < n, matchedAt parseFloat profile rows (k + j) = []) ∧
        (relaxationLoop parseFloat profile rows candidate remaining k (thresholdsAt profile k)
          rounds).1 = (matchedAt parseFloat profile rows (k + n)).map candidate) ∨
      ((∀ n ≤ remaining, matchedAt parseFloat profile rows (k + n) = []) ∧
        (relaxationLoop parseFloat profile rows candidate remaining k (thresholdsAt profile k)
          rounds).1 = []) := by
  induction remaining generalizing k rounds with
  | zero =>
    unfold relaxationLoop
    by_cases h : matchedAt parseFloat profile rows k = []
    · right
      refine ⟨fun n hn => ?_, ?_⟩
      · rw [Nat.le_zero.mp hn]
        exact h
      · exact congrArg Prod.fst (if_neg (not_not_intro h))
    · left
      exact ⟨0, le_refl _, h, nofun, congrArg Prod.fst (if_pos h)⟩
  | succ remaining ih =>
    unfold relaxationLoop
    by_cases h : matchedAt parseFloat profile rows k = []
    · have hnext := ih (k + 1)
        (rounds ++ [⟨k, decide (0 < k), thresholdsAt profile k,
          (matchedAt parseFloat profile rows k).length⟩])
      have hstep : ∀ n, k + 1 + n = k + (n + 1) := by
        intro n
        omega
      simp only [hstep] at hnext
      have hempty := h
      unfold matchedAt at hempty
      dsimp only
      rw [if_neg (not_not_intro hempty)]
      rcases hnext with ⟨n, hn, hmatch, hearlier, hresult⟩ | ⟨hnone, hresult⟩
      · left
        refine ⟨n + 1, Nat.succ_le_succ hn, hmatch, fun j hj => ?_, hresult⟩
        cases j with
        | zero => exact h
        | succ j => exact hearlier j (Nat.lt_of_succ_lt_succ hj)
      · right
        refine ⟨fun j hj => ?_, hresult⟩
        cases j with
        | zero => exact h
        | succ j => exact hnone j (Nat.le_of_succ_le_succ hj)
    · left
      exact ⟨0, Nat.zero_le _, h, nofun, congrArg Prod.fst (if_pos h)⟩

/-- Relaxing a screen keeps what matched, stays inside the declared bounds, and stops at the first
round that matches anything. -/
theorem screening_relaxation (allowScreeningRelaxation : Bool)
    (hrows : ∀ row ∈ rows, NonNegativeLevels parseFloat row) :
    (∀ k, ∀ row ∈ rows, screeningMatcher parseFloat (thresholdsAt profile k) row profile = true →
        screeningMatcher parseFloat (thresholdsAt profile (k + 1)) row profile = true) ∧
      (∀ k, (thresholdsAt profile k : ScreeningThresholds r).WithinBounds) ∧
      ((∃ k ≤ maxRounds allowScreeningRelaxation, matchedAt parseFloat profile rows k ≠ [] ∧
          (∀ j < k, matchedAt parseFloat profile rows j = []) ∧
          (screenCandidates parseFloat profile rows candidate allowScreeningRelaxation).1 =
            (matchedAt parseFloat profile rows k).map candidate) ∨
        ((∀ k ≤ maxRounds allowScreeningRelaxation, matchedAt parseFloat profile rows k = []) ∧
          (screenCandidates parseFloat profile rows candidate allowScreeningRelaxation).1 = [])) := by
  refine ⟨fun k row hrow h => ?_, fun k => (onLadder_thresholdsAt profile k).bounds, ?_⟩
  · exact screeningMatcher_looser profile (hrows row hrow)
      ((onLadder_thresholdsAt profile k).looser profile) h
  · have hloop := relaxationLoop_first parseFloat profile rows candidate
      (maxRounds allowScreeningRelaxation) 0 []
    simp only [Nat.zero_add] at hloop
    exact hloop

end

/-- A stock three percent below its yearly high. -/
def nearHigh : ScreeningRow .exact :=
  ⟨[("close", .number (.num (ofRat _ 97))), ("high_252", .number (.num (ofRat _ 100))),
    ("volume_ratio_20", .number (.num (ofRat _ 1.3))), ("sma20", .number (.num (ofRat _ 90))),
    ("relative_strength_20d", .number (.num (ofRat _ 0.1)))], by decide⟩

theorem screening_relaxation_nearHigh :
    (screenCandidates (fun _ => none) "breakout_volume" [nearHigh] id true).1 = [nearHigh] ∧
      matchedAt (fun _ => none) "breakout_volume" [nearHigh] 0 = [] := by
  have hlevels : ∀ row ∈ [nearHigh], NonNegativeLevels (fun _ => none) row := by
    intro row hrow key hkey x hx
    rw [List.mem_singleton.mp hrow] at hx
    simp only [List.mem_cons, List.not_mem_nil, or_false] at hkey
    rcases hkey with rfl | rfl
    · cases hx
      exact ofRat_nonneg (by norm_num)
    · cases hx
  have hmatched : (matchedAt (fun _ => none) "breakout_volume" [nearHigh] 2).length = 1 := by
    decide +kernel
  refine ⟨?_, List.length_eq_zero_iff.mp (by decide +kernel)⟩
  rcases (screening_relaxation (fun _ => none) "breakout_volume" [nearHigh] id true hlevels).2.2 with
    ⟨k, _, hmatch, _, hresult⟩ | ⟨hnone, _⟩
  · rw [hresult, List.map_id]
    unfold matchedAt at hmatch ⊢
    obtain ⟨row, hrow⟩ := List.exists_mem_of_ne_nil _ hmatch
    have hkept := (List.mem_filter.mp hrow).2
    rw [List.mem_singleton.mp (List.mem_filter.mp hrow).1] at hkept
    exact List.filter_eq_self.mpr (by
      intro other hother
      rw [List.mem_singleton.mp hother]
      exact hkept)
  · rw [hnone 2 (by decide)] at hmatched
    cases hmatched

end QuantAgent.DataSource
