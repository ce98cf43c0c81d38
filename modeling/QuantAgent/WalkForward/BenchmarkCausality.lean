import QuantAgent.WalkForward.SelfFinancing

namespace QuantAgent.WalkForward
open Features
set_option autoImplicit true

section Texts

theorem fixedDigits_concat (width n : ℕ) :
    fixedDigits (width + 1) n = fixedDigits width (n / 10) ++ [Nat.digitChar (n % 10)] := by
  induction width with
  | zero => simp [fixedDigits]
  | succ width ih =>
    rw [fixedDigits, ih, fixedDigits, List.cons_append, Nat.div_div_eq_div_mul, ← pow_succ']

theorem fixedDigits_zero (width : ℕ) : fixedDigits width 0 = List.replicate width '0' := by
  induction width with
  | zero => rfl
  | succ width ih =>
    rw [fixedDigits, ih, Nat.zero_div, List.replicate_succ]
    rfl

/-- A number that fits is padded to its decimal digits. -/
theorem zeroPadded_eq_fixedDigits (width : ℕ) {n : ℕ} (hn : n < 10 ^ (width + 1)) :
    zeroPadded (width + 1) n = fixedDigits (width + 1) n := by
  have hnonneg : ¬(n : ℤ) < 0 := not_lt.mpr (Int.natCast_nonneg n)
  rw [zeroPadded, if_neg hnonneg, Int.natAbs_natCast]
  induction width generalizing n with
  | zero =>
    have hsmall : n < 10 := by simpa using hn
    rw [Nat.toDigits_of_lt_base hsmall, fixedDigits_concat, Nat.mod_eq_of_lt hsmall]
    rfl
  | succ width ih =>
    rw [fixedDigits_concat]
    rcases Nat.lt_or_ge n 10 with hsmall | hlarge
    · rw [Nat.toDigits_of_lt_base hsmall, Nat.div_eq_of_lt hsmall, Nat.mod_eq_of_lt hsmall, fixedDigits_zero]
      rfl
    · have hdiv : n / 10 < 10 ^ (width + 1) := by
        rw [Nat.div_lt_iff_lt_mul (by decide), ← pow_succ]
        exact hn
      rw [Nat.toDigits_of_base_le (by decide) hlarge, ← ih hdiv (not_lt.mpr (Int.natCast_nonneg _)),
        List.length_append, List.length_singleton, ← List.append_assoc]
      congr 3
      omega

theorem pyInt?_digits {s : List Char} (h : digits? s = some n) : pyInt? s = some (n : ℤ) := by
  have hshape : s ≠ [] ∧ s.all Char.isDigit = true := by
    by_contra hnot
    rw [digits?, if_neg hnot] at h
    cases h
  have hdigit : ∀ c ∈ s, c.isDigit = true := List.all_eq_true.mp hshape.2
  have hspace : ∀ l : List Char, (∀ c ∈ l, c.isDigit = true) → l.dropWhile isPySpace = l := by
    intro l hl
    cases l with
    | nil => rfl
    | cons c l =>
      have hc : isPySpace c = false := by
        have hc := hl c (List.mem_cons_self ..)
        rw [isPySpace, decide_eq_false_iff_not]
        intro hmem
        simp only [List.mem_cons, List.not_mem_nil, or_false] at hmem
        rcases hmem with rfl | rfl | rfl | rfl | rfl | rfl <;> cases hc
      rw [List.dropWhile_cons_of_neg (by simp [hc])]
  have hunderscore : ∀ c ∈ s, c ≠ '_' := by
    rintro c hc rfl
    cases hdigit _ hc
  have hfilter : s.filter (· ≠ '_') = s := by
    rw [List.filter_eq_self]
    intro c hc
    simpa using hunderscore c hc
  have hparts : pySplit '_' s = [s] := pySplit_of_notMem fun hmem => hunderscore '_' hmem rfl
  have hbody : ((s.dropWhile isPySpace).reverse.dropWhile isPySpace).reverse = s := by
    rw [hspace s hdigit, hspace s.reverse fun c hc => hdigit c (List.mem_reverse.mp hc), List.reverse_reverse]
  rw [pyInt?, hbody]
  have hmagnitude : (if ((pySplit '_' s).all fun part => (digits? part).isSome) then
      (digits? (s.filter (· ≠ '_'))).map Int.ofNat else none) = some (n : ℤ) := by
    rw [hparts, hfilter, List.all_cons, h]
    rfl
  split
  · rename_i digits
    cases hdigit '-' (List.mem_cons_self ..)
  · rename_i digits
    cases hdigit '+' (List.mem_cons_self ..)
  · exact hmagnitude

/-- The month before a day's month, as year and month. -/
def monthBefore (d : PyDate) : ℕ × ℕ := if d.month = 1 then (d.year - 1, 12) else (d.year, d.month - 1)

/-- `YYYY-MM` -/
def yearMonthText (yearMonth : ℕ × ℕ) : String :=
  String.ofList (fixedDigits 4 yearMonth.1 ++ '-' :: fixedDigits 2 yearMonth.2)

theorem sessionMonth_isoformat (d : PyDate) : sessionMonth d.isoformat = yearMonthText (d.year, d.month) := by
  rw [sessionMonth, PyDate.isoformat, String.toList_ofList, yearMonthText, List.take_append]
  simp only [length_fixedDigits, List.take_of_length_le, Nat.reduceLeDiff]
  rfl

theorem previousMonth_isoformat (d : PyDate) :
    previousMonth (sessionMonth d.isoformat) = yearMonthText (monthBefore d) := by
  have hyear := d.year_mem
  have hmonth := d.month_mem
  have hdash : ∀ c ∈ fixedDigits 4 d.year, decide (c ≠ '-') = true := by
    intro c hc
    have hdigit := List.all_eq_true.mp (fixedDigits_isDigit 4 d.year) c hc
    apply decide_eq_true
    rintro rfl
    cases hdigit
  have htake : (fixedDigits 4 d.year ++ '-' :: fixedDigits 2 d.month).takeWhile (· ≠ '-') =
      fixedDigits 4 d.year := by
    rw [List.takeWhile_append_of_pos hdash]
    exact List.append_nil _
  have hdrop : (fixedDigits 4 d.year ++ '-' :: fixedDigits 2 d.month).dropWhile (· ≠ '-') =
      '-' :: fixedDigits 2 d.month := by
    rw [List.dropWhile_append_of_pos hdash]
    rfl
  have hyearText := pyInt?_digits (digits?_fixedDigits (n := d.year) four_pos (by omega))
  have hyearMonthText := pyInt?_digits (digits?_fixedDigits (n := d.month) two_pos (by omega))
  rw [sessionMonth_isoformat, previousMonth, yearMonthText, String.toList_ofList, htake, hdrop]
  dsimp only
  rw [hyearText, hyearMonthText]
  dsimp only
  rw [yearMonthText, monthBefore]
  by_cases hjanuary : d.month = 1
  · have hpad := zeroPadded_eq_fixedDigits 3 (n := d.year - 1) (by omega)
    rw [Nat.cast_sub hyear.1, Nat.cast_one] at hpad
    have htwelve : "-12".toList = '-' :: fixedDigits 2 12 := by decide
    rw [if_pos (by exact_mod_cast hjanuary), if_pos hjanuary, hpad, htwelve]
  · have hpad := zeroPadded_eq_fixedDigits 3 (n := d.year) (by omega)
    have hpad' := zeroPadded_eq_fixedDigits 1 (n := d.month - 1) (by omega)
    rw [Nat.cast_sub hmonth.1, Nat.cast_one] at hpad'
    rw [if_neg (by exact_mod_cast hjanuary), if_neg hjanuary, hpad, hpad']

end Texts

section Published
variable {F : Type} [NumPy F] {parseFloat : String → Option F}

/-- The weights of a session's month are those published for the month before. -/
theorem laggedWeights_get? (monthlyWeights : Option (List (String × RawWeights F)))
    {sessions : List String} {date : String} (h : date ∈ sessions) :
    (laggedOfficialBenchmarkWeights parseFloat monthlyWeights sessions).get? (sessionMonth date) =
      (publishedWeights parseFloat monthlyWeights).get? (previousMonth (sessionMonth date)) := by
  have hknown : ∀ (sessions : List String) (month : String),
      (laggedOfficialBenchmarkWeights parseFloat monthlyWeights sessions).get? month =
        if ∃ session ∈ sessions, sessionMonth session = month then
          (publishedWeights parseFloat monthlyWeights).get? (previousMonth month)
        else none := by
    intro sessions month
    induction sessions using List.reverseRecOn with
    | nil => rw [if_neg (by simp)]; rfl
    | append_singleton sessions session ih =>
      have hiff : (∃ s ∈ sessions ++ [session], sessionMonth s = month) ↔
          (∃ s ∈ sessions, sessionMonth s = month) ∨ month = sessionMonth session := by
        rw [eq_comm (a := month)]
        simp [or_and_right, exists_or]
      rw [laggedOfficialBenchmarkWeights] at ih ⊢
      rw [List.foldl_append, List.foldl_cons, List.foldl_nil]
      generalize sessions.foldl _ _ = lagged at ih ⊢
      simp only [hiff]
      by_cases hthere : sessionMonth session ∈ lagged
      · rw [if_pos hthere, ih]
        by_cases hmonth : month = sessionMonth session
        · obtain ⟨pair, hpair⟩ := Dict.mem_iff_get?.mp hthere
          rw [← hmonth, ih] at hpair
          split at hpair
          · rename_i hfound
            rw [if_pos hfound, if_pos (.inl hfound)]
          · cases hpair
        · simp only [hmonth, or_false]
      · rw [if_neg hthere]
        by_cases hmonth : month = sessionMonth session
        · subst hmonth
          rw [if_pos (.inr rfl)]
          cases hpublished : (publishedWeights parseFloat monthlyWeights).get?
              (previousMonth (sessionMonth session)) with
          | none => exact Dict.get?_eq_none_iff.mpr hthere
          | some pair => exact Dict.get?_insert_self _
        · simp only [hmonth, or_false]
          rw [← ih]
          cases (publishedWeights parseFloat monthlyWeights).get? (previousMonth (sessionMonth session)) with
          | none => rfl
          | some pair => rw [Dict.get?_insert, if_neg hmonth]
  rw [hknown, if_pos ⟨date, h, rfl⟩]

end Published

section Curve
variable [PySqrt ℚ] {parseFloat : String → Option (Flt ℚ)}

/-- The loop over all sessions gives the portfolio of all of them. -/
theorem officialKrxTrBenchmarkCurve_run {kospiTr kosdaqTr : Dict String (Cell (Flt ℚ))}
    {laggedTargetWeights : Dict String (Flt ℚ × Flt ℚ)}
    (h : officialKrxTrBenchmarkCurve parseFloat kospiTr kosdaqTr laggedTargetWeights = .ok (curve, total)) :
    total = curve.getLast?.map (·.cumulativeReturn) ∧
      ∃ s, CurveRun parseFloat kospiTr kosdaqTr laggedTargetWeights (commonSessions kospiTr kosdaqTr)
        curve s := by
  obtain ⟨⟨s, log⟩, hloop, h⟩ := bind_ok_iff.mp h
  cases h
  refine ⟨rfl, s, ?_⟩
  have hsorted := sortedSet_pairwise (kospiTr.keys.filter (· ∈ kosdaqTr))
  have hrun := traceM_run (I := CurveRun parseFloat kospiTr kosdaqTr laggedTargetWeights) (d := [])
    (l := []) hloop ⟨rfl, rfl, nofun, nofun⟩ fun done rest log s date s' o hsplit hrun hstep => by
      rw [List.nil_append, commonSessions] at hsplit
      rw [hsplit, List.append_cons] at hsorted
      exact stepSession_run (List.pairwise_append.mp hsorted).1 hrun hstep
  exact hrun

omit [PySqrt ℚ] in
/-- What the sessions up to a date are worth is read off them alone. -/
theorem portfolioValue_filter {w : String → ℚ × ℚ} (sessions : List Levels) {bound : String} {d : Levels}
    (hd : d.date ≤ bound) :
    portfolioValue w (sessions.filter (·.date ≤ bound)) d = portfolioValue w sessions d := by
  have hfilter : (sessions.filter (·.date ≤ bound)).filter (·.date ≤ d.date) =
      sessions.filter (·.date ≤ d.date) := by
    rw [List.filter_filter]
    apply List.filter_congr
    intro e _
    rw [Bool.and_eq_left_iff_imp, decide_eq_true_eq, decide_eq_true_eq]
    exact fun h => h.trans hd
  rw [portfolioValue, portfolioValue, hfilter]

/-- The first points of the curve are the curve of the first sessions. -/
theorem portfolioCurve_filter {w : String → ℚ × ℚ} {sessions : List Levels} (h : Chronological sessions)
    (bound : String) :
    (portfolioCurve w sessions).filter (·.date ≤ bound) =
      portfolioCurve w (sessions.filter (·.date ≤ bound)) := by
  rw [portfolioCurve, List.filter_map, portfolioCurve]
  apply List.map_congr_left
  intro d hd
  have hbound : d.date ≤ bound := of_decide_eq_true (List.mem_filter.mp hd).2
  have hhead : (sessions.filter (·.date ≤ bound)).head?.elim 1
        (portfolioValue w (sessions.filter (·.date ≤ bound))) =
      sessions.head?.elim 1 (portfolioValue w sessions) := by
    cases sessions with
    | nil => rfl
    | cons first later =>
      have hfirst : first.date ≤ bound := by
        rcases List.mem_cons.mp (List.mem_filter.mp hd).1 with rfl | hlater
        · exact hbound
        · exact ((List.pairwise_cons.mp h).1 d hlater).le.trans hbound
      have hvalue := portfolioValue_filter (w := w) (first :: later) hfirst
      have hfront : (first :: later).filter (·.date ≤ bound) = first :: later.filter (·.date ≤ bound) :=
        List.filter_cons_of_pos (by simpa using hfirst)
      rw [hfront] at hvalue ⊢
      exact hvalue
  rw [portfolioValue_filter _ hbound, hhead]

omit [PySqrt ℚ] in
theorem portfolioValue_congr {w w' : String → ℚ × ℚ} {sessions : List Levels}
    (h : ∀ d ∈ sessions, w (sessionMonth d.date) = w' (sessionMonth d.date)) (d : Levels) :
    portfolioValue w sessions d = portfolioValue w' sessions d := by
  have hfirsts : ∀ s ∈ firstOfMonth (sessions.filter (·.date ≤ d.date)),
      w (sessionMonth s.date) = w' (sessionMonth s.date) := fun s hs =>
    h s (List.mem_filter.mp (List.mem_filter.mp hs).1).1
  rw [portfolioValue, portfolioValue]
  generalize firstOfMonth (sessions.filter (·.date ≤ d.date)) = firsts at hfirsts
  have hproduct : monthlyProduct w firsts = monthlyProduct w' firsts := by
    induction firsts with
    | nil => rfl
    | cons s firsts ih =>
      have ih := ih fun e he => hfirsts e (List.mem_cons_of_mem _ he)
      cases firsts with
      | nil => rfl
      | cons e firsts => rw [monthlyProduct, monthlyProduct, ih, hfirsts s (List.mem_cons_self ..)]
  have hmonth : monthGrowth w firsts d = monthGrowth w' firsts d := by
    rw [monthGrowth, monthGrowth]
    cases hlast : firsts.getLast? with
    | none => rfl
    | some s => rw [Option.elim_some, Option.elim_some, hfirsts s (List.mem_of_getLast? hlast)]
  rw [hproduct, hmonth]

theorem portfolioCurve_congr {w w' : String → ℚ × ℚ} {sessions : List Levels}
    (h : ∀ d ∈ sessions, w (sessionMonth d.date) = w' (sessionMonth d.date)) :
    portfolioCurve w sessions = portfolioCurve w' sessions := by
  have hvalue : portfolioValue w sessions = portfolioValue w' sessions :=
    funext fun d => portfolioValue_congr h d
  rw [portfolioCurve, portfolioCurve, hvalue]

omit [PySqrt ℚ] in
/-- Series that agree up to a date have the same common sessions up to it. -/
theorem commonSessions_filter {kospiTr kosdaqTr kospiTr' kosdaqTr' : Dict String (Cell (Flt ℚ))}
    {bound : String} (hkospi : ∀ date ≤ bound, kospiTr.get? date = kospiTr'.get? date)
    (hkosdaq : ∀ date ≤ bound, kosdaqTr.get? date = kosdaqTr'.get? date) :
    (commonSessions kospiTr kosdaqTr).filter (· ≤ bound) =
      (commonSessions kospiTr' kosdaqTr').filter (· ≤ bound) := by
  have hmem : ∀ (a b : Dict String (Cell (Flt ℚ))) (date : String),
      date ∈ commonSessions a b ↔ date ∈ a ∧ date ∈ b := by
    intro a b date
    rw [commonSessions, mem_sortedSet, List.mem_filter, decide_eq_true_eq]
    rfl
  have hsorted : ∀ a b : Dict String (Cell (Flt ℚ)),
      ((commonSessions a b).filter (· ≤ bound)).Pairwise (· < ·) := fun a b =>
    (sortedSet_pairwise _).sublist List.filter_sublist
  apply (hsorted _ _).eq_of_mem_iff (hsorted _ _)
  intro date
  rw [List.mem_filter, List.mem_filter, hmem, hmem, decide_eq_true_eq]
  constructor
  · rintro ⟨⟨ha, hb⟩, hdate⟩
    rw [Dict.mem_iff_get?, hkospi date hdate, ← Dict.mem_iff_get?] at ha
    rw [Dict.mem_iff_get?, hkosdaq date hdate, ← Dict.mem_iff_get?] at hb
    exact ⟨⟨ha, hb⟩, hdate⟩
  · rintro ⟨⟨ha, hb⟩, hdate⟩
    rw [Dict.mem_iff_get?, ← hkospi date hdate, ← Dict.mem_iff_get?] at ha
    rw [Dict.mem_iff_get?, ← hkosdaq date hdate, ← Dict.mem_iff_get?] at hb
    exact ⟨⟨ha, hb⟩, hdate⟩

/-- The curve as the portfolio of the common sessions, with weights published the month before. -/
structure SelfFinancing (parseFloat : String → Option (Flt ℚ)) (kospiTr kosdaqTr : Dict String (Cell (Flt ℚ)))
    (monthlyWeights : Option (List (String × RawWeights (Flt ℚ))))
    (curve : List (BacktestEquityPoint (Flt ℚ))) (w : String → ℚ × ℚ) (sessions : List Levels) : Prop where
  dates : sessions.map (·.date) = commonSessions kospiTr kosdaqTr
  levels : ∀ d ∈ sessions, levelAt parseFloat kospiTr "kospi_tr" d.date = .ok (.num d.kospi) ∧
    levelAt parseFloat kosdaqTr "kosdaq_tr" d.date = .ok (.num d.kosdaq)
  weights : ∀ d ∈ sessions,
    (publishedWeights parseFloat monthlyWeights).get? (previousMonth (sessionMonth d.date)) =
      some (.num (w (sessionMonth d.date)).1, .num (w (sessionMonth d.date)).2)
  points : curve = portfolioCurve w sessions

theorem selfFinancing_of_ok {kospiTr kosdaqTr : Dict String (Cell (Flt ℚ))}
    {monthlyWeights : Option (List (String × RawWeights (Flt ℚ)))}
    (h : officialBenchmarkCurve parseFloat kospiTr kosdaqTr monthlyWeights = .ok (curve, total)) :
    total = curve.getLast?.map (·.cumulativeReturn) ∧ ∃ w sessions,
      SelfFinancing parseFloat kospiTr kosdaqTr monthlyWeights curve w sessions := by
  obtain ⟨htotal, s, hrun⟩ := officialKrxTrBenchmarkCurve_run h
  refine ⟨htotal, _, _, ?_, ?_, ?_, hrun.points⟩
  · rw [List.map_map]
    exact List.map_id _
  · intro d hd
    obtain ⟨date, hdate, rfl⟩ := List.mem_map.mp hd
    exact hrun.levels date hdate
  · intro d hd
    obtain ⟨date, hdate, rfl⟩ := List.mem_map.mp hd
    have hknown := hrun.weights date hdate
    rw [WeightsKnown, laggedWeights_get? monthlyWeights hdate] at hknown
    exact hknown

theorem SelfFinancing.chronological {kospiTr kosdaqTr : Dict String (Cell (Flt ℚ))}
    {monthlyWeights : Option (List (String × RawWeights (Flt ℚ)))}
    {curve : List (BacktestEquityPoint (Flt ℚ))} {w : String → ℚ × ℚ} {sessions : List Levels}
    (h : SelfFinancing parseFloat kospiTr kosdaqTr monthlyWeights curve w sessions) :
    Chronological sessions := by
  have hsorted : (commonSessions kospiTr kosdaqTr).Pairwise (· < ·) := sortedSet_pairwise _
  rw [← h.dates] at hsorted
  exact List.pairwise_map.mp hsorted

/-- Sessions with the same dates up to a bound, read from series that agree up to it, are the same. -/
theorem sessions_agree {kospiTr kosdaqTr kospiTr' kosdaqTr' : Dict String (Cell (Flt ℚ))}
    {monthlyWeights monthlyWeights' : Option (List (String × RawWeights (Flt ℚ)))}
    {w w' : String → ℚ × ℚ} {sessions sessions' : List Levels} {bound : String}
    (h : SelfFinancing parseFloat kospiTr kosdaqTr monthlyWeights curve w sessions)
    (h' : SelfFinancing parseFloat kospiTr' kosdaqTr' monthlyWeights' curve' w' sessions')
    (hkospi : ∀ date ≤ bound, kospiTr.get? date = kospiTr'.get? date)
    (hkosdaq : ∀ date ≤ bound, kosdaqTr.get? date = kosdaqTr'.get? date) :
    sessions.filter (·.date ≤ bound) = sessions'.filter (·.date ≤ bound) := by
  have hdates : (sessions.filter (·.date ≤ bound)).map (·.date) =
      (sessions'.filter (·.date ≤ bound)).map (·.date) := by
    have hcommon := commonSessions_filter hkospi hkosdaq
    rw [← h.dates, ← h'.dates, List.filter_map, List.filter_map] at hcommon
    exact hcommon
  apply List.ext_getElem
  · simpa using congrArg List.length hdates
  · intro i hi hi'
    have hd := List.mem_filter.mp (List.getElem_mem hi)
    have hd' := List.mem_filter.mp (List.getElem_mem hi')
    have hdate : (sessions.filter (·.date ≤ bound))[i].date =
        (sessions'.filter (·.date ≤ bound))[i].date := by
      have hget := congrArg (·[i]?) hdates
      simpa [List.getElem?_eq_getElem hi, List.getElem?_eq_getElem hi'] using hget
    generalize (sessions.filter (·.date ≤ bound))[i] = d at hd hdate
    generalize (sessions'.filter (·.date ≤ bound))[i] = d' at hd' hdate
    have hbound : d.date ≤ bound := of_decide_eq_true hd.2
    have hlevels := h.levels d hd.1
    have hlevels' := h'.levels d' hd'.1
    rw [← hdate] at hlevels'
    rw [levelAt, levelAt, hkospi _ hbound, hkosdaq _ hbound] at hlevels
    rw [levelAt, levelAt] at hlevels'
    have hk := hlevels.1.symm.trans hlevels'.1
    have hq := hlevels.2.symm.trans hlevels'.2
    cases d
    cases d'
    cases hdate
    cases hk
    cases hq
    rfl

/-- The curve is that of the portfolio split anew each month by the weights published the month
before; what comes later does not move its earlier points. -/
theorem officialBenchmarkCurve_selfFinancing {kospiTr kosdaqTr : Dict String (Cell (Flt ℚ))}
    {monthlyWeights : Option (List (String × RawWeights (Flt ℚ)))}
    (h : officialBenchmarkCurve parseFloat kospiTr kosdaqTr monthlyWeights = .ok (curve, total)) :
    (total = curve.getLast?.map (·.cumulativeReturn) ∧ ∃ w sessions,
      SelfFinancing parseFloat kospiTr kosdaqTr monthlyWeights curve w sessions) ∧
    (∀ d : PyDate, sessionMonth d.isoformat = yearMonthText (d.year, d.month) ∧
      previousMonth (sessionMonth d.isoformat) = yearMonthText (monthBefore d)) ∧
    ∀ (kospiTr' kosdaqTr' : Dict String (Cell (Flt ℚ)))
      (monthlyWeights' : Option (List (String × RawWeights (Flt ℚ))))
      (curve' : List (BacktestEquityPoint (Flt ℚ))) (total' : Option (Flt ℚ)) (bound : String),
      officialBenchmarkCurve parseFloat kospiTr' kosdaqTr' monthlyWeights' = .ok (curve', total') →
      (∀ date ≤ bound, kospiTr.get? date = kospiTr'.get? date) →
      (∀ date ≤ bound, kosdaqTr.get? date = kosdaqTr'.get? date) →
      (∀ date ∈ commonSessions kospiTr kosdaqTr, date ≤ bound →
        (publishedWeights parseFloat monthlyWeights).get? (previousMonth (sessionMonth date)) =
          (publishedWeights parseFloat monthlyWeights').get? (previousMonth (sessionMonth date))) →
      curve.filter (·.date ≤ bound) = curve'.filter (·.date ≤ bound) := by
  have hcurve := selfFinancing_of_ok h
  refine ⟨hcurve, fun d => ⟨sessionMonth_isoformat d, previousMonth_isoformat d⟩, ?_⟩
  intro kospiTr' kosdaqTr' monthlyWeights' curve' total' bound h' hkospi hkosdaq hweights
  obtain ⟨-, w, sessions, hself⟩ := hcurve
  obtain ⟨-, w', sessions', hself'⟩ := selfFinancing_of_ok h'
  have hsessions := sessions_agree hself hself' hkospi hkosdaq
  rw [hself.points, hself'.points, portfolioCurve_filter hself.chronological,
    portfolioCurve_filter hself'.chronological, ← hsessions]
  apply portfolioCurve_congr
  intro d hd
  have hd' := List.mem_filter.mp (hsessions ▸ hd)
  have hd := List.mem_filter.mp hd
  have hdate : d.date ∈ commonSessions kospiTr kosdaqTr := by
    rw [← hself.dates]
    exact List.mem_map_of_mem hd.1
  have hpair := hweights d.date hdate (of_decide_eq_true hd.2)
  rw [hself.weights d hd.1, hself'.weights d hd'.1, Option.some.injEq, Prod.mk.injEq] at hpair
  exact Prod.ext (Flt.num.inj hpair.1) (Flt.num.inj hpair.2)

end Curve

/-- A series of exact levels. -/
def seriesOf (levels : List (String × ℚ)) : Dict String (Cell (Flt ℚ)) :=
  levels.foldl (fun series (date, level) => series.insert date (.number (.num level))) Dict.empty

/-- Exact weights, by the month they are published for. -/
def weightsOf (weights : List (String × ℚ × ℚ)) : Option (List (String × RawWeights (Flt ℚ))) :=
  some (weights.map fun (month, kospi, kosdaq) =>
    (month, .sequence [.number (.num kospi), .number (.num kosdaq)]))

/-- Two sessions of January and one of February, with the weights of December and of January. -/
theorem officialBenchmarkCurve_selfFinancing_twoMonths :
    ∃ curve w sessions, SelfFinancing (fun _ => none)
      (seriesOf [("2024-01-30", 100), ("2024-01-31", 110), ("2024-02-01", 121)])
      (seriesOf [("2024-01-30", 50), ("2024-01-31", 50), ("2024-02-01", 55)])
      (weightsOf [("2023-12", 3 / 5, 2 / 5), ("2024-01", 1 / 2, 1 / 2)]) curve w sessions := by
  obtain ⟨⟨curve, total⟩, hok⟩ := exists_ok (x := officialBenchmarkCurve (fun _ => none)
    (seriesOf [("2024-01-30", 100), ("2024-01-31", 110), ("2024-02-01", 121)])
    (seriesOf [("2024-01-30", 50), ("2024-01-31", 50), ("2024-02-01", 55)])
    (weightsOf [("2023-12", 3 / 5, 2 / 5), ("2024-01", 1 / 2, 1 / 2)])) (by decide +kernel)
  obtain ⟨⟨_, w, sessions, hself⟩, _⟩ := officialBenchmarkCurve_selfFinancing hok
  exact ⟨curve, w, sessions, hself⟩

end QuantAgent.WalkForward
