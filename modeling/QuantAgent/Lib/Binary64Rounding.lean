import QuantAgent.Lib.Binary64

namespace QuantAgent
set_option autoImplicit true

section HalfEven

theorem abs_roundHalfEven_sub_le (q : ℚ) : |(roundHalfEven q : ℚ) - q| ≤ 1 / 2 := by
  have hfloor := Int.floor_le q
  have hlt := Int.lt_floor_add_one q
  rw [abs_le]
  simp only [roundHalfEven]
  split
  · constructor <;> linarith
  · rename_i hge
    have hge := not_lt.mp hge
    split
    · push_cast
      constructor <;> linarith
    · rename_i hle
      have hle := not_lt.mp hle
      split
      · constructor <;> linarith
      · push_cast
        constructor <;> linarith

/-- The only integer within a half is the rounding. -/
theorem roundHalfEven_eq {q : ℚ} {n : ℤ} (h : |(n : ℚ) - q| < 1 / 2) : roundHalfEven q = n := by
  have hround := abs_le.mp (abs_roundHalfEven_sub_le q)
  have hn := abs_lt.mp h
  have hlt : ((roundHalfEven q - n : ℤ) : ℚ) < 1 := by
    push_cast
    linarith
  have hgt : (-1 : ℚ) < ((roundHalfEven q - n : ℤ) : ℚ) := by
    push_cast
    linarith
  have hlt' : roundHalfEven q - n < 1 := by exact_mod_cast hlt
  have hgt' : -1 < roundHalfEven q - n := by exact_mod_cast hgt
  omega

theorem roundHalfEven_intCast (n : ℤ) : roundHalfEven n = n :=
  roundHalfEven_eq (by simp)

/-- At the same distance from two integers the even one is taken. -/
theorem roundHalfEven_tie {q : ℚ} {n : ℤ} (h : |(n : ℚ) - q| = 1 / 2) :
    roundHalfEven q = n ↔ n % 2 = 0 := by
  have hcases : q = n - 1 / 2 ∨ q = n + 1 / 2 := by
    rcases abs_cases ((n : ℚ) - q) with ⟨habs, -⟩ | ⟨habs, -⟩
    · left
      linarith
    · right
      linarith
  obtain rfl | rfl := hcases
  · have hfloor : ⌊(n : ℚ) - 1 / 2⌋ = n - 1 := by
      rw [Int.floor_eq_iff]
      push_cast
      constructor <;> linarith
    simp only [roundHalfEven, hfloor]
    push_cast
    rw [if_neg (by linarith), if_neg (by linarith)]
    omega
  · have hfloor : ⌊(n : ℚ) + 1 / 2⌋ = n := by
      rw [Int.floor_eq_iff]
      constructor <;> linarith
    simp only [roundHalfEven, hfloor]
    rw [if_neg (by linarith), if_neg (by linarith)]
    split
    · rename_i heven
      exact iff_of_true rfl heven
    · rename_i hodd
      exact iff_of_false (by omega) hodd

theorem roundHalfEven_nearest (q : ℚ) (n : ℤ) : |(roundHalfEven q : ℚ) - q| ≤ |(n : ℚ) - q| := by
  rcases lt_or_ge |(n : ℚ) - q| (1 / 2) with hlt | hge
  · rw [roundHalfEven_eq hlt]
  · exact (abs_roundHalfEven_sub_le q).trans hge

end HalfEven

section Exponent

theorem powTwo_eq (e : ℤ) : powTwo e = 2 ^ e := by
  cases e with
  | ofNat n => simp [powTwo]
  | negSucc n => simp [powTwo, zpow_negSucc]

theorem binaryExponent_spec {q : ℚ} (h : 0 < q) :
    (2 : ℚ) ^ binaryExponent q ≤ q ∧ q < 2 ^ (binaryExponent q + 1) := by
  have hnum : q.num.natAbs ≠ 0 := by
    simpa using h.ne'
  have hden : q.den ≠ 0 := q.den_nz
  have hq : q = q.num.natAbs / q.den := by
    have habs : (q.num.natAbs : ℚ) = q.num := by
      rw [Nat.cast_natAbs, abs_of_pos (Rat.num_pos.mpr h)]
    rw [habs, Rat.num_div_den]
  set a := Nat.log2 q.num.natAbs with ha
  set b := Nat.log2 q.den with hb
  have hdenpos : (0 : ℚ) < q.den := by exact_mod_cast Nat.pos_of_ne_zero hden
  have hnumle : (2 : ℚ) ^ a ≤ q.num.natAbs := by exact_mod_cast Nat.log2_self_le hnum
  have hnumlt : (q.num.natAbs : ℚ) < 2 ^ (a + 1) := by exact_mod_cast Nat.lt_log2_self
  have hdenle : (2 : ℚ) ^ b ≤ q.den := by exact_mod_cast Nat.log2_self_le hden
  have hdenlt : (q.den : ℚ) < 2 ^ (b + 1) := by exact_mod_cast Nat.lt_log2_self
  have hupper : q < 2 ^ ((a : ℤ) - b + 1) := by
    rw [hq, div_lt_iff₀ hdenpos, show (a : ℤ) - b + 1 = (a + 1 : ℕ) - (b : ℕ) by push_cast; ring,
      zpow_sub₀ two_ne_zero, zpow_natCast, zpow_natCast]
    calc (q.num.natAbs : ℚ) < 2 ^ (a + 1) := hnumlt
      _ = 2 ^ (a + 1) / 2 ^ b * 2 ^ b := by field_simp
      _ ≤ 2 ^ (a + 1) / 2 ^ b * q.den := by gcongr
  have hlower : 2 ^ ((a : ℤ) - b - 1) ≤ q := by
    rw [hq, le_div_iff₀ hdenpos, show (a : ℤ) - b - 1 = (a : ℕ) - (b + 1 : ℕ) by push_cast; ring,
      zpow_sub₀ two_ne_zero, zpow_natCast, zpow_natCast]
    calc (2 : ℚ) ^ a / 2 ^ (b + 1) * q.den ≤ 2 ^ a / 2 ^ (b + 1) * 2 ^ (b + 1) := by gcongr
      _ = 2 ^ a := by field_simp
      _ ≤ q.num.natAbs := hnumle
  have hdef : binaryExponent q =
      if (2 : ℚ) ^ ((a : ℤ) - b) ≤ q then (a : ℤ) - b else (a : ℤ) - b - 1 := by
    simp only [binaryExponent, powTwo_eq, ha, hb]
  rw [hdef]
  split
  · rename_i hle
    exact ⟨hle, hupper⟩
  · rename_i hle
    refine ⟨hlower, ?_⟩
    rw [sub_add_cancel]
    exact not_le.mp hle

theorem binaryExponent_eq {q : ℚ} {e : ℤ} (hle : (2 : ℚ) ^ e ≤ q) (hlt : q < 2 ^ (e + 1)) :
    binaryExponent q = e := by
  have hpos : 0 < q := lt_of_lt_of_le (zpow_pos two_pos e) hle
  obtain ⟨hle', hlt'⟩ := binaryExponent_spec hpos
  have h1 : binaryExponent q < e + 1 :=
    (zpow_lt_zpow_iff_right₀ (one_lt_two (α := ℚ))).mp (hle'.trans_lt hlt)
  have h2 : e < binaryExponent q + 1 :=
    (zpow_lt_zpow_iff_right₀ (one_lt_two (α := ℚ))).mp (hle.trans_lt hlt')
  omega

theorem binaryExponent_mono {q r : ℚ} (hq : 0 < q) (h : q ≤ r) :
    binaryExponent q ≤ binaryExponent r := by
  have hlt := (binaryExponent_spec hq).1.trans_lt
    (h.trans_lt (binaryExponent_spec (hq.trans_le h)).2)
  have := (zpow_lt_zpow_iff_right₀ (one_lt_two (α := ℚ))).mp hlt
  omega

end Exponent

section Ulp

theorem unitInLastPlace_eq (q : ℚ) :
    unitInLastPlace q = 2 ^ (max (binaryExponent |q|) (-1022) - 52) :=
  powTwo_eq _

theorem unitInLastPlace_pos (q : ℚ) : 0 < unitInLastPlace q := by
  rw [unitInLastPlace_eq]
  exact zpow_pos two_pos _

theorem unitInLastPlace_of_exponent {q : ℚ} {e : ℤ} (hle : (2 : ℚ) ^ e ≤ |q|) (hlt : |q| < 2 ^ (e + 1))
    (he : -1022 ≤ e) : unitInLastPlace q = 2 ^ (e - 52) := by
  rw [unitInLastPlace_eq, binaryExponent_eq hle hlt, max_eq_left he]

/-- A number of at least one more unit of its own last place than of another is one of the other
as well. -/
theorem exists_mul_unit {u v : ℤ} (h : v ≤ u) (k : ℤ) : ∃ j : ℤ, (k : ℚ) * 2 ^ u = j * 2 ^ v := by
  obtain ⟨d, rfl⟩ := Int.le.dest h
  refine ⟨k * 2 ^ d, ?_⟩
  rw [zpow_add₀ two_ne_zero, zpow_natCast]
  push_cast
  ring

/-- The distance of the doubles is at most a part in `2 ^ 52` of a normal number. -/
theorem unitInLastPlace_le {q : ℚ} (hq : (2 : ℚ) ^ (-1022 : ℤ) ≤ |q|) :
    unitInLastPlace q ≤ |q| * 2 ^ (-52 : ℤ) := by
  have hpos : 0 < |q| := lt_of_lt_of_le (zpow_pos two_pos _) hq
  obtain ⟨hle, hlt⟩ := binaryExponent_spec hpos
  have he : -1022 ≤ binaryExponent |q| := by
    have := (zpow_lt_zpow_iff_right₀ (one_lt_two (α := ℚ))).mp (hq.trans_lt hlt)
    omega
  rw [unitInLastPlace_of_exponent hle hlt he, sub_eq_add_neg, zpow_add₀ two_ne_zero]
  gcongr

end Ulp

section Rounding

theorem roundBinary64_eq (q : ℚ) :
    roundBinary64 q = roundHalfEven (q / unitInLastPlace q) * unitInLastPlace q := by
  unfold roundBinary64
  split
  · rename_i hzero
    subst hzero
    have hround : roundHalfEven (0 : ℚ) = 0 := by simpa using roundHalfEven_intCast 0
    rw [zero_div, hround, Int.cast_zero, zero_mul]
  · rfl

theorem abs_roundBinary64_sub_le (q : ℚ) : |roundBinary64 q - q| ≤ unitInLastPlace q / 2 := by
  have hpos := unitInLastPlace_pos q
  have hround := abs_roundHalfEven_sub_le (q / unitInLastPlace q)
  have hfactor : roundBinary64 q - q =
      (roundHalfEven (q / unitInLastPlace q) - q / unitInLastPlace q) * unitInLastPlace q := by
    rw [roundBinary64_eq, sub_mul, div_mul_cancel₀ _ hpos.ne']
  rw [hfactor, abs_mul, abs_of_pos hpos]
  calc _ ≤ 1 / 2 * unitInLastPlace q := by gcongr
    _ = unitInLastPlace q / 2 := by ring

/-- No multiple of the unit of `q` is nearer to `q` than its rounding. -/
theorem roundBinary64_nearest_unit (q : ℚ) (k : ℤ) :
    |roundBinary64 q - q| ≤ |k * unitInLastPlace q - q| := by
  have hpos := unitInLastPlace_pos q
  have hscale : ∀ n : ℤ, |(n : ℚ) * unitInLastPlace q - q| =
      |(n : ℚ) - q / unitInLastPlace q| * unitInLastPlace q := by
    intro n
    have hfactor : (n : ℚ) * unitInLastPlace q - q =
        (n - q / unitInLastPlace q) * unitInLastPlace q := by
      rw [sub_mul, div_mul_cancel₀ _ hpos.ne']
    rw [hfactor, abs_mul, abs_of_pos hpos]
  rw [roundBinary64_eq, hscale, hscale]
  have hnearest := roundHalfEven_nearest (q / unitInLastPlace q) k
  gcongr

/-- A rational that a double has as its value. -/
def IsDouble (q : ℚ) : Prop := ∃ k : ℤ, q = k * unitInLastPlace q

theorem IsDouble.round_eq (h : IsDouble q) : roundBinary64 q = q := by
  obtain ⟨k, hk⟩ := h
  have hpos := unitInLastPlace_pos q
  have hquot : q / unitInLastPlace q = k := by
    rw [div_eq_iff hpos.ne']
    exact hk
  rw [roundBinary64_eq, hquot, roundHalfEven_intCast]
  exact hk.symm

theorem isDouble_zero : IsDouble 0 := ⟨0, by simp⟩

/-- A multiple of a unit no finer than a double's of its size is a double. -/
theorem IsDouble.of_unit {r : ℚ} {v : ℤ} (k : ℤ) (hr : r = k * 2 ^ v)
    (hfine : max (binaryExponent |r|) (-1022) - 52 ≤ v) : IsDouble r := by
  obtain ⟨j, hj⟩ := exists_mul_unit hfine k
  refine ⟨j, ?_⟩
  rw [unitInLastPlace_eq, ← hj]
  exact hr

theorem isDouble_zpow {e : ℤ} (k : ℤ) (hk : |k| = 1) (he : -1022 ≤ e) :
    IsDouble ((k : ℚ) * 2 ^ e) := by
  have hkq : |(k : ℚ)| = 1 := by exact_mod_cast hk
  have habs : |(k : ℚ) * 2 ^ e| = 2 ^ e := by
    rw [abs_mul, hkq, one_mul, abs_of_pos (zpow_pos two_pos e)]
  have hexp : binaryExponent |(k : ℚ) * 2 ^ e| = e := by
    rw [habs]
    exact binaryExponent_eq le_rfl ((zpow_lt_zpow_iff_right₀ one_lt_two).mpr (by omega))
  exact .of_unit k rfl (by rw [hexp]; omega)

theorem isDouble_roundBinary64 (q : ℚ) : IsDouble (roundBinary64 q) := by
  by_cases hq : q = 0
  · rw [hq, roundBinary64, if_pos rfl]
    exact isDouble_zero
  set E := max (binaryExponent |q|) (-1022) with hE
  have hu : unitInLastPlace q = 2 ^ (E - 52) := unitInLastPlace_eq q
  have hpos : (0 : ℚ) < 2 ^ (E - 52) := zpow_pos two_pos _
  set k := roundHalfEven (q / unitInLastPlace q) with hk
  have hr : roundBinary64 q = k * 2 ^ (E - 52) := by rw [roundBinary64_eq, ← hk, hu]
  have htop : (2 : ℚ) ^ (53 : ℕ) * 2 ^ (E - 52) = 2 ^ (E + 1) := by
    rw [← zpow_natCast, ← zpow_add₀ two_ne_zero]
    congr 1
    push_cast
    ring
  have hqlt : |q| < 2 ^ (E + 1) := by
    have hlt := (binaryExponent_spec (abs_pos.mpr hq)).2
    exact hlt.trans_le (zpow_le_zpow_right₀ one_le_two (by omega))
  have hklt : |k| < 2 ^ 53 + 1 := by
    have hnear := abs_roundHalfEven_sub_le (q / unitInLastPlace q)
    have hquot : |q / unitInLastPlace q| < 2 ^ 53 := by
      rw [hu, abs_div, abs_of_pos hpos, div_lt_iff₀ hpos, htop]
      exact hqlt
    have hkq : |(k : ℚ)| < 2 ^ 53 + 1 := by
      have htri := abs_add_le ((k : ℚ) - q / unitInLastPlace q) (q / unitInLastPlace q)
      rw [sub_add_cancel] at htri
      rw [← hk] at hnear
      linarith
    exact_mod_cast hkq
  rw [hr]
  rcases lt_or_eq_of_le (Int.lt_add_one_iff.mp hklt) with hlt | heq
  · by_cases hk0 : k = 0
    · rw [hk0, Int.cast_zero, zero_mul]
      exact isDouble_zero
    · refine .of_unit k rfl ?_
      have habs : |(k : ℚ) * 2 ^ (E - 52)| < 2 ^ (E + 1) := by
        rw [abs_mul, abs_of_pos hpos, ← htop]
        have hcast : |(k : ℚ)| < 2 ^ 53 := by exact_mod_cast hlt
        gcongr
      have hne : 0 < |(k : ℚ) * 2 ^ (E - 52)| :=
        abs_pos.mpr (mul_ne_zero (Int.cast_ne_zero.mpr hk0) hpos.ne')
      have hexp := (zpow_lt_zpow_iff_right₀ (one_lt_two (α := ℚ))).mp
        ((binaryExponent_spec hne).1.trans_lt habs)
      omega
  · obtain ⟨s, hs, hsign⟩ : ∃ s : ℤ, |s| = 1 ∧ k = s * 2 ^ 53 := by
      rcases abs_cases k with ⟨habs, -⟩ | ⟨habs, -⟩
      · exact ⟨1, by decide, by omega⟩
      · exact ⟨-1, by decide, by omega⟩
    have hpow : (k : ℚ) * 2 ^ (E - 52) = s * 2 ^ (E + 1) := by
      rw [hsign, ← htop]
      push_cast
      ring
    rw [hpow]
    exact isDouble_zpow s hs (by omega)

/-- No double is nearer to `q` than its rounding. -/
theorem roundBinary64_nearest (q : ℚ) (hx : IsDouble x) : |roundBinary64 q - q| ≤ |x - q| := by
  by_cases hq : q = 0
  · rw [hq, roundBinary64, if_pos rfl, sub_zero, abs_zero]
    exact abs_nonneg _
  obtain ⟨k, hk⟩ := hx
  have hqpos : 0 < |q| := abs_pos.mpr hq
  obtain ⟨hle, hlt⟩ := binaryExponent_spec hqpos
  by_cases hfine : max (binaryExponent |q|) (-1022) ≤ max (binaryExponent |x|) (-1022)
  · have hsub : max (binaryExponent |q|) (-1022) - 52 ≤ max (binaryExponent |x|) (-1022) - 52 := by
      omega
    obtain ⟨j, hj⟩ := exists_mul_unit hsub k
    have hxj : x = j * unitInLastPlace q := by
      rw [unitInLastPlace_eq q, ← hj, ← unitInLastPlace_eq x]
      exact hk
    rw [hxj]
    exact roundBinary64_nearest_unit q j
  · -- Then `x` lies below the power of two that starts the binade of `q`.
    have hnormal : -1022 < binaryExponent |q| := by omega
    have hxlt : |x| < 2 ^ binaryExponent |q| := by
      by_cases hx0 : x = 0
      · rw [hx0, abs_zero]
        exact zpow_pos two_pos _
      · have hxe := (binaryExponent_spec (abs_pos.mpr hx0)).2
        exact hxe.trans_le (zpow_le_zpow_right₀ one_le_two (by omega))
    obtain ⟨s, hs⟩ : ∃ s : ℤ, |q| = s * q ∧ (s = 1 ∨ s = -1) := by
      rcases abs_cases q with ⟨habs, -⟩ | ⟨habs, -⟩
      · exact ⟨1, by simpa using habs, .inl rfl⟩
      · exact ⟨-1, by simpa using habs, .inr rfl⟩
    have hstart : (s : ℚ) * 2 ^ binaryExponent |q| = (s * 2 ^ 52 : ℤ) * unitInLastPlace q := by
      rw [unitInLastPlace_eq, max_eq_left hnormal.le, zpow_sub₀ two_ne_zero]
      push_cast
      field_simp
    have hnear := roundBinary64_nearest_unit q (s * 2 ^ 52)
    rw [← hstart] at hnear
    refine hnear.trans ?_
    have hdist : |(s : ℚ) * 2 ^ binaryExponent |q| - q| = |q| - 2 ^ binaryExponent |q| := by
      obtain ⟨habs, rfl | rfl⟩ := hs
      · rw [Int.cast_one, one_mul] at habs ⊢
        rw [show (2 : ℚ) ^ binaryExponent |q| - q = -(|q| - 2 ^ binaryExponent |q|) by linarith,
          abs_neg, abs_of_nonneg (sub_nonneg.mpr hle)]
      · push_cast at habs ⊢
        rw [show -1 * (2 : ℚ) ^ binaryExponent |q| - q = |q| - 2 ^ binaryExponent |q| by
          linarith, abs_of_nonneg (sub_nonneg.mpr hle)]
    rw [hdist]
    have htri := abs_sub_abs_le_abs_sub q x
    rw [abs_sub_comm q x] at htri
    linarith

/-- The integers up to `2 ^ 53` are doubles. -/
theorem isDouble_intCast {n : ℤ} (hn : |n| ≤ 2 ^ 53) : IsDouble n := by
  rcases lt_or_eq_of_le hn with hlt | heq
  · by_cases h0 : n = 0
    · rw [h0, Int.cast_zero]
      exact isDouble_zero
    · refine .of_unit (v := 0) n (by simp) ?_
      have hpos : (0 : ℚ) < |(n : ℚ)| := abs_pos.mpr (Int.cast_ne_zero.mpr h0)
      have hupper : |(n : ℚ)| < 2 ^ (53 : ℤ) := by exact_mod_cast hlt
      have hexp := (zpow_lt_zpow_iff_right₀ (one_lt_two (α := ℚ))).mp
        ((binaryExponent_spec hpos).1.trans_lt hupper)
      omega
  · obtain ⟨s, hs, rfl⟩ : ∃ s : ℤ, |s| = 1 ∧ n = s * 2 ^ 53 := by
      rcases abs_cases n with ⟨habs, -⟩ | ⟨habs, -⟩
      · exact ⟨1, by decide, by omega⟩
      · exact ⟨-1, by decide, by omega⟩
    have hdouble := isDouble_zpow (e := 53) s hs (by decide)
    have hcast : ((s * 2 ^ 53 : ℤ) : ℚ) = s * 2 ^ (53 : ℤ) := by
      push_cast
      rfl
    rw [hcast]
    exact hdouble

theorem roundBinary64_one : roundBinary64 1 = 1 := by
  have hone := (isDouble_intCast (n := 1) (by decide)).round_eq
  rwa [Int.cast_one] at hone

/-- Up to one, a rounding moves by half of the finest unit below it at most. -/
theorem abs_roundBinary64_sub_le_of_le_one {q : ℚ} (h : |q| < 1) :
    |roundBinary64 q - q| ≤ 1 / 2 ^ 54 := by
  by_cases hq : q = 0
  · rw [hq, isDouble_zero.round_eq, sub_zero, abs_zero]
    positivity
  refine (abs_roundBinary64_sub_le q).trans ?_
  have hexp := (zpow_lt_zpow_iff_right₀ (one_lt_two (α := ℚ))).mp
    ((binaryExponent_spec (abs_pos.mpr hq)).1.trans_lt (show |q| < 2 ^ (0 : ℤ) by rwa [zpow_zero]))
  have hunit : unitInLastPlace q ≤ 2 ^ (-53 : ℤ) := by
    rw [unitInLastPlace_eq]
    exact zpow_le_zpow_right₀ one_le_two (by omega)
  calc unitInLastPlace q / 2 ≤ 2 ^ (-53 : ℤ) / 2 := by gcongr
    _ = 1 / 2 ^ 54 := by norm_num

/-- Quotients that are not too close are told apart. -/
theorem roundBinary64_lt {q r : ℚ} (hq : 0 ≤ q) (hr : r ≤ 1) (h : q + 1 / 2 ^ 53 < r) :
    roundBinary64 q < roundBinary64 r := by
  have hgap : (0 : ℚ) < 1 / 2 ^ 53 := by positivity
  have hsplit : (1 : ℚ) / 2 ^ 53 = 1 / 2 ^ 54 + 1 / 2 ^ 54 := by norm_num
  have hlow := abs_le.mp (abs_roundBinary64_sub_le_of_le_one (show |q| < 1 by rw [abs_of_nonneg hq]; linarith))
  rcases eq_or_lt_of_le hr with rfl | hr
  · rw [roundBinary64_one]
    linarith
  · have hhigh := abs_le.mp (abs_roundBinary64_sub_le_of_le_one (show |r| < 1 by
      rw [abs_of_nonneg (by linarith)]
      exact hr))
    linarith

/-- The rounding of a double to some places, rounded once more. -/
theorem round_decimal_idem {x s : ℚ} (hs : 0 < s) (hx : IsDouble x) :
    roundHalfEven (roundBinary64 (roundHalfEven (x * s) / s) * s) = roundHalfEven (x * s) := by
  set k := roundHalfEven (x * s) with hk
  have hscale : ∀ y : ℚ, |(k : ℚ) - y * s| = |y - k / s| * s := by
    intro y
    have hfactor : (k : ℚ) - y * s = -((y - k / s) * s) := by
      field_simp
      ring
    rw [hfactor, abs_neg, abs_mul, abs_of_pos hs]
  have hnear : |(k : ℚ) - roundBinary64 (k / s) * s| ≤ |(k : ℚ) - x * s| := by
    rw [hscale, hscale]
    have hnearest := roundBinary64_nearest (k / s) hx
    gcongr
  have hhalf := abs_roundHalfEven_sub_le (x * s)
  rw [← hk] at hhalf
  rcases lt_or_eq_of_le (hnear.trans hhalf) with hlt | heq
  · exact roundHalfEven_eq hlt
  · -- The double has come to lie halfway, so `x` did, and the tie goes to the same even number.
    have htie : |(k : ℚ) - x * s| = 1 / 2 := le_antisymm hhalf (heq ▸ hnear)
    exact (roundHalfEven_tie heq).mpr ((roundHalfEven_tie htie).mp hk.symm)

end Rounding

namespace Binary64

/-- `round(round(x, n), n)` is `round(x, n)`. -/
theorem round_round {x : Binary64} (hx : IsDouble x.value) (n : ℕ) :
    PyFloat.round n (PyFloat.round n x) = PyFloat.round n x := by
  have hpow : (0 : ℚ) < 10 ^ n := by positivity
  have hround := round_decimal_idem hpow hx
  change ofRat (roundHalfEven (roundBinary64 (roundHalfEven (x.value * 10 ^ n) / 10 ^ n) * 10 ^ n) /
    10 ^ n) = ofRat (roundHalfEven (x.value * 10 ^ n) / 10 ^ n)
  rw [hround]

theorem isDouble_ofRat (q : ℚ) : IsDouble (ofRat q).value := isDouble_roundBinary64 q

theorem ofRat_intCast {n : ℤ} (hn : |n| ≤ 2 ^ 53) : ofRat n = ⟨n⟩ := by
  rw [ofRat, (isDouble_intCast hn).round_eq]

theorem round_intCast {n : ℤ} (hn : |n| ≤ 2 ^ 53) (digits : ℕ) :
    PyFloat.round digits (⟨n⟩ : Binary64) = ⟨n⟩ := by
  have hscaled : (n : ℚ) * 10 ^ digits = ((n * 10 ^ digits : ℤ) : ℚ) := by push_cast; rfl
  have hpow : (10 : ℚ) ^ digits ≠ 0 := by positivity
  have hround : PyFloat.round digits (⟨n⟩ : Binary64) =
      ofRat (roundHalfEven ((n : ℚ) * 10 ^ digits) / 10 ^ digits) := rfl
  rw [hround, hscaled, roundHalfEven_intCast, ← hscaled, mul_div_cancel_right₀ _ hpow,
    ofRat_intCast hn]

end Binary64

namespace Flt

/-- The double of an integer. -/
def whole (n : ℤ) : Flt Binary64 := .num ⟨n⟩

theorem whole_zero : whole 0 = 0 := congrArg (fun q : ℚ => num (⟨q⟩ : Binary64)) Int.cast_zero

theorem whole_one : whole 1 = 1 := congrArg (fun q : ℚ => num (⟨q⟩ : Binary64)) Int.cast_one

theorem whole_add {m n : ℤ} (h : |m + n| ≤ 2 ^ 53) : whole m + whole n = whole (m + n) := by
  change num (Binary64.ofRat ((m : ℚ) + n)) = _
  rw [← Int.cast_add, Binary64.ofRat_intCast h, whole]

theorem whole_sub {m n : ℤ} (h : |m - n| ≤ 2 ^ 53) : whole m - whole n = whole (m - n) := by
  change num (Binary64.ofRat ((m : ℚ) - n)) = _
  rw [← Int.cast_sub, Binary64.ofRat_intCast h, whole]

theorem whole_mul {m n : ℤ} (h : |m * n| ≤ 2 ^ 53) : whole m * whole n = whole (m * n) := by
  change num (Binary64.ofRat ((m : ℚ) * n)) = _
  rw [← Int.cast_mul, Binary64.ofRat_intCast h, whole]

theorem whole_div {m n k : ℤ} (hn : n ≠ 0) (hk : m = k * n) (h : |k| ≤ 2 ^ 53) :
    whole m / whole n = whole k := by
  have hne : ((n : ℚ) == 0) = false := beq_eq_false_iff_ne.mpr (Int.cast_ne_zero.mpr hn)
  have hquotient : (m : ℚ) / n = k := by
    rw [hk, Int.cast_mul, mul_div_cancel_right₀ _ (Int.cast_ne_zero.mpr hn)]
  change (if (n : ℚ) == 0 then nan else num (Binary64.ofRat ((m : ℚ) / n))) = _
  rw [hne, hquotient, Binary64.ofRat_intCast h]
  rfl

theorem round_whole {n : ℤ} (hn : |n| ≤ 2 ^ 53) (digits : ℕ) :
    PyFloat.round digits (whole n) = whole n :=
  congrArg num (Binary64.round_intCast hn digits)

end Flt
end QuantAgent
