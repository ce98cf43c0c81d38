import QuantAgent.WalkForward.OfficialBenchmark
import QuantAgent.Lib.ExactFloat

namespace QuantAgent.WalkForward
open Features
set_option autoImplicit true

/-- The two total-return levels of a session. -/
structure Levels where
  date : String
  kospi : ℚ
  kosdaq : ℚ

/-- What a unit of value becomes from one session to another, split by the weights. -/
def legGrowth (w : ℚ × ℚ) (s d : Levels) : ℚ := w.1 * (d.kospi / s.kospi) + w.2 * (d.kosdaq / s.kosdaq)

/-- The sessions before which there is none of the same month. -/
def firstOfMonth (sessions : List Levels) : List Levels :=
  sessions.filter fun s => decide (∀ e ∈ sessions, sessionMonth e.date = sessionMonth s.date → s.date ≤ e.date)

/-- The growth from each first session to the next one. -/
def monthlyProduct (w : String → ℚ × ℚ) : List Levels → ℚ
  | s :: e :: firsts => legGrowth (w (sessionMonth s.date)) s e * monthlyProduct w (e :: firsts)
  | _ => 1

/-- The growth from the first session of the month at hand. -/
def monthGrowth (w : String → ℚ × ℚ) (firsts : List Levels) (d : Levels) : ℚ :=
  firsts.getLast?.elim 1 fun s => legGrowth (w (sessionMonth s.date)) s d

/-- The value on a session of the portfolio that is split anew on the first session of each month. -/
def portfolioValue (w : String → ℚ × ℚ) (sessions : List Levels) (d : Levels) : ℚ :=
  let firsts := firstOfMonth (sessions.filter (·.date ≤ d.date))
  monthlyProduct w firsts * monthGrowth w firsts d

section Months
variable {seen : List Levels} {x : Levels} {w : String → ℚ × ℚ}

theorem take_lt_take {n : ℕ} {a b : List Char} (h : a.take n < b.take n) : a < b := by
  induction n generalizing a b with
  | zero => exact absurd h (lt_irrefl _)
  | succ n ih =>
    cases b with
    | nil =>
      rw [List.take_nil] at h
      exact absurd h (List.not_lt_nil _)
    | cons y b =>
      cases a with
      | nil => exact List.nil_lt_cons y b
      | cons x a =>
        rw [List.take_succ_cons, List.take_succ_cons, List.cons_lt_cons_iff] at h
        exact List.cons_lt_cons_iff.mpr (h.imp id fun h => ⟨h.1, ih h.2⟩)

theorem sessionMonth_mono {a b : String} (h : a ≤ b) : sessionMonth a ≤ sessionMonth b := by
  by_contra hlt
  rw [not_le, sessionMonth, sessionMonth, String.lt_iff_toList_lt, String.toList_ofList, String.toList_ofList] at hlt
  exact absurd h (not_le.mpr (String.lt_iff_toList_lt.mpr (take_lt_take hlt)))

theorem monthlyProduct_concat (firsts : List Levels) (x : Levels) :
    monthlyProduct w (firsts ++ [x]) = monthlyProduct w firsts * monthGrowth w firsts x := by
  induction firsts with
  | nil => simp [monthlyProduct, monthGrowth]
  | cons s firsts ih =>
    cases firsts with
    | nil => simp [monthlyProduct, monthGrowth]
    | cons e firsts =>
      have hlast : monthGrowth w (s :: e :: firsts) x = monthGrowth w (e :: firsts) x := by
        rw [monthGrowth, monthGrowth, List.getLast?_cons_cons]
      rw [List.cons_append, List.cons_append, monthlyProduct, ← List.cons_append, ih, hlast,
        monthlyProduct, mul_assoc]

theorem filter_firstOfMonth (hbefore : ∀ e ∈ seen, e.date < x.date) :
    seen.filter (fun s => decide (∀ e ∈ seen ++ [x], sessionMonth e.date = sessionMonth s.date → s.date ≤ e.date)) =
      firstOfMonth seen := by
  apply List.filter_congr
  intro s hs
  rw [decide_eq_decide, List.forall_mem_append, List.forall_mem_singleton]
  exact and_iff_left fun _ => (hbefore s hs).le

/-- A later session of a month that has begun is none of the first ones. -/
theorem firstOfMonth_concat_old (hbefore : ∀ e ∈ seen, e.date < x.date)
    (hold : ∃ e ∈ seen, sessionMonth e.date = sessionMonth x.date) :
    firstOfMonth (seen ++ [x]) = firstOfMonth seen := by
  obtain ⟨e, he, hmonth⟩ := hold
  have hlater : ¬∀ e ∈ seen ++ [x], sessionMonth e.date = sessionMonth x.date → x.date ≤ e.date := fun h =>
    absurd (h e (List.mem_append_left _ he) hmonth) (not_le.mpr (hbefore e he))
  rw [firstOfMonth, List.filter_append, filter_firstOfMonth hbefore,
    List.filter_singleton, decide_eq_false hlater]
  exact List.append_nil _

theorem firstOfMonth_concat_new (hbefore : ∀ e ∈ seen, e.date < x.date)
    (hnew : ∀ e ∈ seen, sessionMonth e.date ≠ sessionMonth x.date) :
    firstOfMonth (seen ++ [x]) = firstOfMonth seen ++ [x] := by
  have hfirst : ∀ e ∈ seen ++ [x], sessionMonth e.date = sessionMonth x.date → x.date ≤ e.date := by
    intro e he hmonth
    rcases List.mem_append.mp he with he | he
    · exact absurd hmonth (hnew e he)
    · rw [List.mem_singleton.mp he]
  rw [firstOfMonth, List.filter_append, filter_firstOfMonth hbefore, List.filter_singleton,
    decide_eq_true hfirst]
  rfl

/-- The sessions done, each before the next. -/
def Chronological (sessions : List Levels) : Prop := sessions.Pairwise fun a b => a.date < b.date

theorem Chronological.before (h : Chronological (seen ++ [x])) : ∀ e ∈ seen, e.date < x.date :=
  fun e he => (List.pairwise_append.mp h).2.2 e he x (List.mem_singleton_self x)

/-- Sessions of one month follow each other. -/
theorem month_begun_iff (h : Chronological (seen ++ [x])) :
    (∃ e ∈ seen, sessionMonth e.date = sessionMonth x.date) ↔
      (seen.getLast?.map fun e => sessionMonth e.date) = some (sessionMonth x.date) := by
  constructor
  · rintro ⟨e, he, hmonth⟩
    have hlast := List.getLast?_eq_some_getLast (List.ne_nil_of_mem he)
    generalize seen.getLast (List.ne_nil_of_mem he) = last at hlast
    obtain ⟨front, rfl⟩ := List.getLast?_eq_some_iff.mp hlast
    have hle : e.date ≤ last.date := by
      rcases List.mem_append.mp he with hfront | hself
      · exact ((List.pairwise_append.mp (List.pairwise_append.mp h).1).2.2 e hfront last
          (List.mem_singleton_self last)).le
      · rw [List.mem_singleton.mp hself]
    have hx := h.before last (List.mem_append_right _ (List.mem_singleton_self last))
    rw [hlast, Option.map_some, Option.some.injEq]
    exact le_antisymm (sessionMonth_mono hx.le) (hmonth ▸ sessionMonth_mono hle)
  · intro hlast
    obtain ⟨last, hlast, hmonth⟩ := Option.map_eq_some_iff.mp hlast
    exact ⟨last, List.mem_of_getLast? hlast, hmonth⟩

/-- The month at hand is that of the last first session. -/
theorem month_of_lastFirst (h : Chronological seen) :
    ((firstOfMonth seen).getLast?.map fun s => sessionMonth s.date) =
      seen.getLast?.map fun e => sessionMonth e.date := by
  induction seen using List.reverseRecOn with
  | nil => rfl
  | append_singleton seen x ih =>
    have ih := ih (List.pairwise_append.mp h).1
    rw [List.getLast?_concat, Option.map_some]
    by_cases hold : ∃ e ∈ seen, sessionMonth e.date = sessionMonth x.date
    · rw [firstOfMonth_concat_old h.before hold, ih]
      exact (month_begun_iff h).mp hold
    · rw [firstOfMonth_concat_new h.before fun e he hmonth => hold ⟨e, he, hmonth⟩,
        List.getLast?_concat, Option.map_some]

/-- Sessions after `d` do not change the value on `d`. -/
theorem portfolioValue_upTo (front back : List Levels) {d : Levels}
    (h : Chronological (front ++ [d] ++ back)) :
    portfolioValue w (front ++ [d] ++ back) d =
      monthlyProduct w (firstOfMonth (front ++ [d])) * monthGrowth w (firstOfMonth (front ++ [d])) d := by
  have hfilter : (front ++ [d] ++ back).filter (·.date ≤ d.date) = front ++ [d] := by
    obtain ⟨hfront, _, hback⟩ := List.pairwise_append.mp h
    rw [List.filter_append, List.filter_eq_self.mpr, List.filter_eq_nil_iff.mpr, List.append_nil]
    · intro e he
      rw [decide_eq_true_eq]
      exact not_le.mpr (hback d (List.mem_append_right _ (List.mem_singleton_self d)) e he)
    · intro e he
      rw [decide_eq_true_eq]
      rcases List.mem_append.mp he with he | he
      · exact (Chronological.before hfront e he).le
      · rw [List.mem_singleton.mp he]
  rw [portfolioValue, hfilter]

end Months

section Loop
variable [PySqrt ℚ] {parseFloat : String → Option (Flt ℚ)} {kospiTr kosdaqTr : Dict String (Cell (Flt ℚ))}
  {laggedTargetWeights : Dict String (Flt ℚ × Flt ℚ)}

omit [PySqrt ℚ] in
/-- The number a float is, if it is one. -/
def numberOf : Flt ℚ → ℚ
  | .num x => x
  | .nan => 0

theorem eq_num_of_finite {x : Flt ℚ} (h : PyFloat.isFinite x = true) : x = .num (numberOf x) := by
  cases x with
  | num x => rfl
  | nan => cases h

variable (parseFloat) in
/-- The level of a session as a number. -/
def exactLevel (series : Dict String (Cell (Flt ℚ))) (fieldName date : String) : ℚ :=
  match levelAt parseFloat series fieldName date with
  | .ok level => numberOf level
  | .error _ => 0

variable (parseFloat kospiTr kosdaqTr) in
def exactLevels (date : String) : Levels where
  date := date
  kospi := exactLevel parseFloat kospiTr "kospi_tr" date
  kosdaq := exactLevel parseFloat kosdaqTr "kosdaq_tr" date

omit [PySqrt ℚ] in
variable (laggedTargetWeights) in
/-- The weights of a month as numbers. -/
def exactWeights (month : String) : ℚ × ℚ :=
  (laggedTargetWeights.get? month).elim (0, 0) fun pair => (numberOf pair.1, numberOf pair.2)

/-- The weights of a month are there, as numbers. -/
def WeightsKnown (laggedTargetWeights : Dict String (Flt ℚ × Flt ℚ)) (month : String) : Prop :=
  laggedTargetWeights.get? month = some (.num (exactWeights laggedTargetWeights month).1,
    .num (exactWeights laggedTargetWeights month).2)

/-- The units a month has after its first session. -/
def unitsFrom (w : String → ℚ × ℚ) (firsts : List Levels) (s : Levels) : Flt ℚ × Flt ℚ :=
  (.num (monthlyProduct w firsts * (w (sessionMonth s.date)).1 / s.kospi),
    .num (monthlyProduct w firsts * (w (sessionMonth s.date)).2 / s.kosdaq))

/-- Where the loop is after these sessions. -/
def stateAfter (w : String → ℚ × ℚ) (seen : List Levels) : CurveState (Flt ℚ) where
  active := (firstOfMonth seen).getLast?.map fun s => ⟨sessionMonth s.date, unitsFrom w (firstOfMonth seen) s⟩
  baseValue := seen.head?.map fun s => .num (legGrowth (w (sessionMonth s.date)) s s)

theorem finiteFloat_finite {value : Cell (Flt ℚ)} (h : finiteFloat parseFloat value field = .ok x) :
    PyFloat.isFinite x = true := by
  have hread : ∀ value : Cell (Flt ℚ), (do
      let parsed ← floatOf parseFloat value
      if PyFloat.isFinite parsed then return parsed
      else .error (.valueError (field ++ " must be finite"))) = Except.ok x →
        PyFloat.isFinite x = true := by
    intro value h
    obtain ⟨parsed, _, h⟩ := bind_ok_iff.mp h
    by_cases hfinite : PyFloat.isFinite parsed = true
    · rw [if_pos hfinite] at h
      cases h
      exact hfinite
    · rw [if_neg hfinite] at h
      cases h
  cases value with
  | bool b => cases h
  | none => exact hread _ h
  | number y => exact hread _ h
  | text t => exact hread _ h

theorem levelAt_exact {series : Dict String (Cell (Flt ℚ))}
    (h : levelAt parseFloat series field date = .ok x) :
    x = .num (exactLevel parseFloat series field date) := by
  have hread := h
  rw [levelAt] at h
  obtain ⟨value, _, hvalue⟩ := bind_ok_iff.mp h
  rw [exactLevel, hread]
  exact eq_num_of_finite (finiteFloat_finite hvalue)

theorem targetWeights_exact (h : targetWeights laggedTargetWeights month = .ok weights) :
    laggedTargetWeights.get? month = some weights ∧
      weights = (.num (exactWeights laggedTargetWeights month).1,
        .num (exactWeights laggedTargetWeights month).2) := by
  rw [targetWeights] at h
  rw [exactWeights]
  cases hfound : laggedTargetWeights.get? month with
  | none =>
    rw [hfound] at h
    cases h
  | some pair =>
    obtain ⟨kospiWeight, kosdaqWeight⟩ := pair
    rw [hfound] at h
    dsimp only at h
    split at h
    · cases h
    · rename_i hchecks
      cases h
      simp only [Bool.or_eq_true, not_or, Bool.not_eq_true', Bool.not_eq_false] at hchecks
      refine ⟨rfl, ?_⟩
      rw [Option.elim_some]
      exact Prod.ext (eq_num_of_finite hchecks.1.1.1.1) (eq_num_of_finite hchecks.1.1.1.2)

theorem rebalancedUnits_exact {w : ℚ × ℚ} {units : Option (Flt ℚ × Flt ℚ)} {value : ℚ} {x : Levels}
    (h : rebalancedUnits (.num w.1, .num w.2) units (.num x.kospi) (.num x.kosdaq) = .ok new)
    (hvalue : carriedValue units (.num x.kospi) (.num x.kosdaq) = .num value) :
    new = (.num (value * w.1 / x.kospi), .num (value * w.2 / x.kosdaq)) := by
  rw [rebalancedUnits] at h
  split at h
  · cases h
  · rename_i hpositive
    obtain ⟨hkospi, hkosdaq⟩ := not_or.mp hpositive
    have hkospi : x.kospi ≠ 0 := fun h => hkospi (show x.kospi ≤ 0 from h.le)
    have hkosdaq : x.kosdaq ≠ 0 := fun h => hkosdaq (show x.kosdaq ≤ 0 from h.le)
    rw [hvalue] at h
    cases h
    exact Prod.ext (num_div _ hkospi) (num_div _ hkosdaq)

omit [PySqrt ℚ] in
theorem stateAfter_units (w : String → ℚ × ℚ) (seen : List Levels) :
    (stateAfter w seen).active.map (·.units) =
      (firstOfMonth seen).getLast?.map (unitsFrom w (firstOfMonth seen)) := by
  rw [stateAfter, Option.map_map]
  rfl

theorem units_value {w : String → ℚ × ℚ} (firsts : List Levels) {s x : Levels} :
    (unitsFrom w firsts s).1 * .num x.kospi + (unitsFrom w firsts s).2 * .num x.kosdaq =
      Flt.num (monthlyProduct w firsts * legGrowth (w (sessionMonth s.date)) s x) := by
  change Flt.num (_ * x.kospi + _ * x.kosdaq) = _
  congr 1
  rw [legGrowth]
  ring

/-- The units of a session are those of the state after it, and value it as the portfolio. -/
theorem unitsAt_exact {seen : List Levels} {date : String} {active : ActiveUnits (Flt ℚ)}
    (hchronological : Chronological (seen ++ [exactLevels parseFloat kospiTr kosdaqTr date]))
    (hseen : ∀ e ∈ seen, WeightsKnown laggedTargetWeights (sessionMonth e.date))
    (h : unitsAt parseFloat kospiTr kosdaqTr laggedTargetWeights
      (stateAfter (exactWeights laggedTargetWeights) seen) date = .ok active) :
    (∃ s, (firstOfMonth (seen ++ [exactLevels parseFloat kospiTr kosdaqTr date])).getLast? = some s ∧
      active = ⟨sessionMonth s.date, unitsFrom (exactWeights laggedTargetWeights)
        (firstOfMonth (seen ++ [exactLevels parseFloat kospiTr kosdaqTr date])) s⟩) ∧
      WeightsKnown laggedTargetWeights (sessionMonth date) := by
  have hmonth := month_of_lastFirst (List.pairwise_append.mp hchronological).1
  have hbegun := month_begun_iff hchronological
  rw [← hmonth] at hbegun
  by_cases hold : ∃ e ∈ seen, sessionMonth e.date = sessionMonth date
  · obtain ⟨s, hs, hsame⟩ := Option.map_eq_some_iff.mp (hbegun.mp hold)
    have hsame : sessionMonth s.date = sessionMonth date := hsame
    rw [firstOfMonth_concat_old hchronological.before hold]
    have hactive : (stateAfter (exactWeights laggedTargetWeights) seen).active.filter
        (·.month = sessionMonth date) =
          some ⟨sessionMonth s.date, unitsFrom (exactWeights laggedTargetWeights) (firstOfMonth seen) s⟩ := by
      rw [stateAfter, hs, Option.map_some, Option.filter_some, decide_eq_true hsame, if_pos rfl]
    rw [unitsAt, hactive] at h
    cases h
    obtain ⟨e, he, hmonth⟩ := hold
    exact ⟨⟨s, hs, rfl⟩, hmonth ▸ hseen e he⟩
  · have hnew := firstOfMonth_concat_new hchronological.before fun e he hmonth => hold ⟨e, he, hmonth⟩
    have hactive : (stateAfter (exactWeights laggedTargetWeights) seen).active.filter
        (·.month = sessionMonth date) = none := by
      rw [stateAfter, Option.filter_eq_none_iff]
      intro active hactive hsame
      obtain ⟨s, hs, rfl⟩ := Option.map_eq_some_iff.mp hactive
      rw [decide_eq_true_eq] at hsame
      exact hold (hbegun.mpr (by rw [hs, Option.map_some]; exact congrArg some hsame))
    rw [unitsAt, hactive] at h
    obtain ⟨weights, hweights, h⟩ := bind_ok_iff.mp h
    obtain ⟨kospiLevel, hkospi, h⟩ := bind_ok_iff.mp h
    obtain ⟨kosdaqLevel, hkosdaq, h⟩ := bind_ok_iff.mp h
    obtain ⟨units, hunits, h⟩ := bind_ok_iff.mp h
    cases h
    obtain ⟨hfound, hweights⟩ := targetWeights_exact hweights
    have hknown : WeightsKnown laggedTargetWeights (sessionMonth date) := by
      rw [WeightsKnown, hfound, ← hweights]
    rw [levelAt_exact hkospi, levelAt_exact hkosdaq, hweights] at hunits
    have hcarried : carriedValue ((firstOfMonth seen).getLast?.map
        (unitsFrom (exactWeights laggedTargetWeights) (firstOfMonth seen)))
          (.num (exactLevel parseFloat kospiTr "kospi_tr" date))
          (.num (exactLevel parseFloat kosdaqTr "kosdaq_tr" date)) =
        .num (monthlyProduct (exactWeights laggedTargetWeights) (firstOfMonth seen) *
          monthGrowth (exactWeights laggedTargetWeights) (firstOfMonth seen)
            (exactLevels parseFloat kospiTr kosdaqTr date)) := by
      cases hs : (firstOfMonth seen).getLast? with
      | none =>
        rw [List.getLast?_eq_none_iff.mp hs]
        exact congrArg Flt.num (mul_one (1 : ℚ)).symm
      | some s =>
        rw [monthGrowth, hs]
        exact units_value _ (x := exactLevels parseFloat kospiTr kosdaqTr date)
    rw [stateAfter_units] at hunits
    have hunits := rebalancedUnits_exact (x := exactLevels parseFloat kospiTr kosdaqTr date) hunits
      hcarried
    rw [hnew, List.getLast?_concat]
    refine ⟨⟨_, rfl, ?_⟩, hknown⟩
    rw [hunits, unitsFrom, monthlyProduct_concat]
    rfl

/-- The points of the portfolio, relative to its first value. -/
def portfolioCurve (w : String → ℚ × ℚ) (sessions : List Levels) :
    List (BacktestEquityPoint (Flt ℚ)) :=
  sessions.map fun d =>
    ⟨d.date, PyFloat.round METRIC_ROUND_DIGITS (.num (portfolioValue w sessions d /
      (sessions.head?.elim 1 (portfolioValue w sessions)) - 1))⟩

omit [PySqrt ℚ] in
theorem portfolioValue_stable {w : String → ℚ × ℚ} {seen back : List Levels} {d : Levels}
    (h : Chronological (seen ++ back)) (hd : d ∈ seen) :
    portfolioValue w (seen ++ back) d = portfolioValue w seen d := by
  obtain ⟨front, middle, rfl⟩ := List.append_of_mem hd
  have hsplit : front ++ d :: middle = front ++ [d] ++ middle := List.append_cons ..
  have hseen := (List.pairwise_append.mp h).1
  rw [hsplit] at h hseen ⊢
  rw [List.append_assoc] at h ⊢
  rw [portfolioValue_upTo _ _ h, portfolioValue_upTo _ _ hseen]

omit [PySqrt ℚ] in
theorem portfolioValue_first {w : String → ℚ × ℚ} {first : Levels} {later : List Levels}
    (h : Chronological (first :: later)) :
    portfolioValue w (first :: later) first = legGrowth (w (sessionMonth first.date)) first first := by
  have hone : firstOfMonth ([] ++ [first]) = [first] :=
    firstOfMonth_concat_new nofun nofun
  have hvalue := portfolioValue_upTo (w := w) [] later h
  rw [hone] at hvalue
  exact hvalue.trans (one_mul _)

theorem portfolioCurve_concat {w : String → ℚ × ℚ} {seen : List Levels} {x : Levels}
    (h : Chronological (seen ++ [x])) :
    portfolioCurve w (seen ++ [x]) = portfolioCurve w seen ++
      [⟨x.date, PyFloat.round METRIC_ROUND_DIGITS (.num (portfolioValue w (seen ++ [x]) x /
        ((seen ++ [x]).head?.elim 1 fun s => legGrowth (w (sessionMonth s.date)) s s) - 1))⟩] := by
  have hhead : (seen ++ [x]).head?.elim 1 (portfolioValue w (seen ++ [x])) =
      (seen ++ [x]).head?.elim 1 fun s => legGrowth (w (sessionMonth s.date)) s s := by
    cases seen with
    | nil => exact portfolioValue_first h
    | cons first seen => exact portfolioValue_first h
  rw [portfolioCurve, hhead, List.map_append, List.map_singleton]
  congr 1
  apply List.map_congr_left
  intro d hd
  have hfirst : (seen ++ [x]).head?.elim 1 (fun s => legGrowth (w (sessionMonth s.date)) s s) =
      seen.head?.elim 1 (portfolioValue w seen) := by
    cases seen with
    | nil => cases hd
    | cons first seen => exact (portfolioValue_first (List.pairwise_append.mp h).1).symm
  rw [portfolioValue_stable h hd, hfirst]

/-- What the loop keeps: its state and its points are those of the sessions done. -/
structure CurveRun (parseFloat : String → Option (Flt ℚ)) (kospiTr kosdaqTr : Dict String (Cell (Flt ℚ)))
    (laggedTargetWeights : Dict String (Flt ℚ × Flt ℚ)) (done : List String)
    (log : List (BacktestEquityPoint (Flt ℚ))) (s : CurveState (Flt ℚ)) : Prop where
  state : s = stateAfter (exactWeights laggedTargetWeights)
    (done.map (exactLevels parseFloat kospiTr kosdaqTr))
  points : log = portfolioCurve (exactWeights laggedTargetWeights)
    (done.map (exactLevels parseFloat kospiTr kosdaqTr))
  weights : ∀ date ∈ done, WeightsKnown laggedTargetWeights (sessionMonth date)
  levels : ∀ date ∈ done,
    levelAt parseFloat kospiTr "kospi_tr" date = .ok (.num (exactLevel parseFloat kospiTr "kospi_tr" date)) ∧
    levelAt parseFloat kosdaqTr "kosdaq_tr" date =
      .ok (.num (exactLevel parseFloat kosdaqTr "kosdaq_tr" date))

omit [PySqrt ℚ] in
/-- The first value of all is the base, on the first session and after it. -/
theorem baseValue_getD {w : String → ℚ × ℚ} {seen : List Levels} {x : Levels}
    (h : Chronological (seen ++ [x])) :
    (stateAfter w seen).baseValue.getD (.num (portfolioValue w (seen ++ [x]) x)) =
      .num ((seen ++ [x]).head?.elim 1 fun s => legGrowth (w (sessionMonth s.date)) s s) := by
  cases seen with
  | nil => exact congrArg Flt.num (portfolioValue_first h)
  | cons d seen => rfl

theorem pointOf_exact {value base' : ℚ} {base : Option (Flt ℚ)} {active : ActiveUnits (Flt ℚ)}
    (hbase : base.getD (.num value) = .num base')
    (h : pointOf active base date (.num value) = .ok (s', out)) :
    s' = ⟨some active, some (.num base')⟩ ∧
      out = [⟨date, PyFloat.round METRIC_ROUND_DIGITS (.num (value / base' - 1))⟩] := by
  rw [pointOf, hbase] at h
  by_cases hzero : base' = 0
  · have hbeq : ((Flt.num base' : Flt ℚ) == 0) = true :=
      show (base' == 0) = true from beq_iff_eq.mpr hzero
    rw [hbeq] at h
    cases h
  · have hbeq : ((Flt.num base' : Flt ℚ) == 0) = false :=
      show (base' == 0) = false from beq_eq_false_iff_ne.mpr hzero
    rw [hbeq, num_div _ hzero] at h
    cases h
    exact ⟨rfl, rfl⟩

theorem stepSession_run {done : List String} {log out : List (BacktestEquityPoint (Flt ℚ))}
    {s s' : CurveState (Flt ℚ)} {date : String} (hdates : (done ++ [date]).Pairwise (· < ·))
    (hrun : CurveRun parseFloat kospiTr kosdaqTr laggedTargetWeights done log s)
    (h : stepSession parseFloat kospiTr kosdaqTr laggedTargetWeights s date = .ok (s', out)) :
    CurveRun parseFloat kospiTr kosdaqTr laggedTargetWeights (done ++ [date]) (log ++ out) s' := by
  obtain ⟨hstate, hpoints, hweights, hlevels⟩ := hrun
  have hmapped : (done ++ [date]).map (exactLevels parseFloat kospiTr kosdaqTr) =
      done.map (exactLevels parseFloat kospiTr kosdaqTr) ++ [exactLevels parseFloat kospiTr kosdaqTr date] := by
    rw [List.map_append, List.map_singleton]
  have hchronological : Chronological ((done ++ [date]).map (exactLevels parseFloat kospiTr kosdaqTr)) :=
    List.pairwise_map.mpr hdates
  rw [stepSession, hstate] at h
  obtain ⟨active, hactive, h⟩ := bind_ok_iff.mp h
  obtain ⟨kospiLevel, hkospi, h⟩ := bind_ok_iff.mp h
  obtain ⟨kosdaqLevel, hkosdaq, h⟩ := bind_ok_iff.mp h
  have hkospiExact := levelAt_exact hkospi
  have hkosdaqExact := levelAt_exact hkosdaq
  subst hkospiExact hkosdaqExact
  have hweights' : ∀ e ∈ done.map (exactLevels parseFloat kospiTr kosdaqTr),
      WeightsKnown laggedTargetWeights (sessionMonth e.date) := by
    intro e he
    obtain ⟨d, hd, rfl⟩ := List.mem_map.mp he
    exact hweights d hd
  rw [hmapped] at hchronological
  obtain ⟨⟨first, hfirst, rfl⟩, hknown⟩ := unitsAt_exact hchronological hweights' hactive
  have hconcat := portfolioCurve_concat (w := exactWeights laggedTargetWeights) hchronological
  have hvalue := portfolioValue_upTo (w := exactWeights laggedTargetWeights) _ []
    (by rwa [List.append_nil])
  rw [List.append_nil, monthGrowth, hfirst, Option.elim_some] at hvalue
  have hunits := units_value (w := exactWeights laggedTargetWeights) (s := first)
    (firstOfMonth (done.map (exactLevels parseFloat kospiTr kosdaqTr) ++
      [exactLevels parseFloat kospiTr kosdaqTr date])) (x := exactLevels parseFloat kospiTr kosdaqTr date)
  rw [← hvalue] at hunits
  have hbase := baseValue_getD (w := exactWeights laggedTargetWeights) hchronological
  replace h : pointOf _ _ date ((unitsFrom (exactWeights laggedTargetWeights)
    (firstOfMonth (done.map (exactLevels parseFloat kospiTr kosdaqTr) ++
      [exactLevels parseFloat kospiTr kosdaqTr date])) first).1 *
        .num (exactLevels parseFloat kospiTr kosdaqTr date).kospi +
      (unitsFrom (exactWeights laggedTargetWeights)
        (firstOfMonth (done.map (exactLevels parseFloat kospiTr kosdaqTr) ++
          [exactLevels parseFloat kospiTr kosdaqTr date])) first).2 *
        .num (exactLevels parseFloat kospiTr kosdaqTr date).kosdaq) = _ := h
  rw [hunits] at h
  obtain ⟨rfl, rfl⟩ := pointOf_exact hbase h
  refine ⟨?_, ?_, ?_, ?_⟩
  · rw [hmapped, stateAfter, hfirst, Option.map_some]
    congr 1
    cases done <;> rfl
  · rw [hmapped, hconcat, hpoints]
    rfl
  · intro d hd
    rcases List.mem_append.mp hd with hd | hd
    · exact hweights d hd
    · rw [List.mem_singleton.mp hd]
      exact hknown
  · intro d hd
    rcases List.mem_append.mp hd with hd | hd
    · exact hlevels d hd
    · rw [List.mem_singleton.mp hd]
      exact ⟨hkospi, hkosdaq⟩

end Loop

end QuantAgent.WalkForward
