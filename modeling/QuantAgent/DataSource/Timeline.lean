import QuantAgent.DataSource.Filings

namespace QuantAgent.DataSource
open QuantAgent.Features
set_option autoImplicit true

/-! What a ticker's filings say of it, without the carried state of the two passes. -/

section Disclosure
variable {F : Type} [NumPy F]

/-- Consecutive rises at the end of a list of values. -/
def rises (values : List F) : ℕ :=
  ((values.zip values.tail).reverse.takeWhile fun pair => decide (pair.1 < pair.2)).length

omit [NumPy F] in
theorem zip_tail_concat (values : List F) (prior value : F) :
    (values ++ [prior, value]).zip (values ++ [prior, value]).tail =
      (values ++ [prior]).zip (values ++ [prior]).tail ++ [(prior, value)] := by
  induction values with
  | nil => rfl
  | cons v values ih =>
    cases values with
    | nil => rfl
    | cons w values =>
      simp only [List.cons_append, List.tail_cons, List.zip_cons_cons, List.cons.injEq, true_and] at ih ⊢
      exact ih

/-- One more value: a rise adds one, anything else starts again, and the first value has no rise. -/
theorem rises_concat (values : List F) (value : F) :
    rises (values ++ [value]) =
      values.getLast?.elim 0 fun prior => if prior < value then rises values + 1 else 0 := by
  induction values using List.reverseRecOn with
  | nil => rfl
  | append_singleton values prior _ =>
    rw [List.getLast?_concat, Option.elim_some, rises, List.append_assoc, List.singleton_append,
      zip_tail_concat, List.reverse_concat, List.takeWhile_cons]
    by_cases h : prior < value
    · rw [if_pos (decide_eq_true h), if_pos h, List.length_cons, rises]
    · rw [if_neg (by simpa using h), if_neg h, List.length_nil]

/-- The values of a metric in the filings that report it. -/
def reported (metric : String) (filings : List (Filing F)) : List F :=
  filings.filterMap fun filing => filing.ratios.get? metric

/-- The newest annual EPS of the filings. -/
def newestAnnualEps (filings : List (Filing F)) : Option F :=
  (filings.filterMap Filing.annual_eps).getLast?

omit [NumPy F] in
theorem newestAnnualEps_concat (filings : List (Filing F)) (filing : Filing F) :
    newestAnnualEps (filings ++ [filing]) = filing.annual_eps.or (newestAnnualEps filings) := by
  rw [newestAnnualEps, newestAnnualEps, List.filterMap_append]
  cases h : filing.annual_eps with
  | none => simp [h]
  | some eps => simp [h]

omit [NumPy F] in
theorem reported_concat (metric : String) (filings : List (Filing F)) (filing : Filing F) :
    reported metric (filings ++ [filing]) =
      reported metric filings ++ (filing.ratios.get? metric).toList := by
  rw [reported, reported, List.filterMap_append]
  cases h : filing.ratios.get? metric with
  | none => simp [h]
  | some value => simp [h]

end Disclosure

theorem get?_setIfSome (d : Dict String α) (key : String) (value : Option α) :
    (setIfSome d key value).get? j = if j = key then value.or (d.get? key) else d.get? j := by
  cases value with
  | none =>
    by_cases h : j = key
    · rw [if_pos h, h]
      rfl
    · rw [if_neg h]
      rfl
  | some value => exact d.get?_insert

/-- A streak is not itself a metric with a streak, and has its metric's name. -/
theorem upStreak_names : ∀ m ∈ streakMetrics, ∀ m' ∈ streakMetrics,
    upStreak m ≠ m' ∧ (upStreak m = upStreak m' → m = m') := by
  decide +kernel

theorem upStreak_ne_eps : ∀ m ∈ streakMetrics, upStreak m ≠ "eps" ∧ m ≠ "eps" := by
  decide +kernel

section FirstPass
variable {F : Type}

/-- A filing once the EPS known with it is written in. -/
def withEps (eps : Option F) (filing : Filing F) : Filing F :=
  ⟨filing.filed, setIfSome filing.ratios "eps" eps, none⟩

theorem carryEps_state (filings : List (Filing F)) :
    loopState carryEps none filings = newestAnnualEps filings := by
  induction filings using List.reverseRecOn with
  | nil => rfl
  | append_singleton filings filing ih =>
    rw [loopState_concat, ih, newestAnnualEps_concat]
    rfl

theorem carryEps_concat (filings : List (Filing F)) (filing : Filing F) :
    loopMap carryEps none (filings ++ [filing]) = loopMap carryEps none filings ++
      [withEps (newestAnnualEps (filings ++ [filing])) filing] := by
  rw [loopMap_concat, carryEps_state, newestAnnualEps_concat]
  rfl

theorem get?_withEps (eps : Option F) (filing : Filing F) (h : key ≠ "eps") :
    (withEps eps filing).ratios.get? key = filing.ratios.get? key := by
  rw [withEps, get?_setIfSome, if_neg h]

/-- The first pass leaves the figures of the streaks alone. -/
theorem reported_carryEps (h : metric ≠ "eps") (filings : List (Filing F)) :
    reported metric (loopMap carryEps none filings) = reported metric filings := by
  induction filings using List.reverseRecOn with
  | nil => rfl
  | append_singleton filings filing ih =>
    rw [carryEps_concat, reported_concat, reported_concat, ih, get?_withEps _ _ h]

end FirstPass

section SecondPass
variable {F : Type} [NumPy F]

/-- What the second pass holds of one metric. -/
@[ext]
structure MetricView (F : Type) where
  previous : Option F
  streak : ℕ
  value : Option F
  written : Option F

def viewOf (metric : String) (s : StreakState F × Dict String F) : MetricView F :=
  ⟨s.1.previous.get? metric, (s.1.streaks.get? metric).getD 0, s.2.get? metric, s.2.get? (upStreak metric)⟩

/-- One filing's effect on it. -/
def MetricView.count (v : MetricView F) : MetricView F :=
  match v.value with
  | none => v
  | some value =>
    let streak := v.previous.elim v.streak fun prior => if prior < value then v.streak + 1 else 0
    ⟨some value, streak, some value, some (lit streak)⟩

theorem viewOf_countMetric (hm : metric ∈ streakMetrics) (s : StreakState F × Dict String F) :
    viewOf metric (countMetric metric s) = (viewOf metric s).count := by
  have hname : metric ≠ upStreak metric := (upStreak_names metric hm metric hm).1.symm
  cases hvalue : s.2.get? metric with
  | none => simp [viewOf, countMetric, MetricView.count, hvalue]
  | some value =>
    cases hprior : s.1.previous.get? metric with
    | none => simp [viewOf, countMetric, MetricView.count, hvalue, hprior, Dict.get?_insert, hname]
    | some prior => simp [viewOf, countMetric, MetricView.count, hvalue, hprior, Dict.get?_insert, hname]

theorem viewOf_countMetric_other (hm : metric ∈ streakMetrics) (hother : other ∈ streakMetrics)
    (hne : metric ≠ other) (s : StreakState F × Dict String F) :
    viewOf metric (countMetric other s) = viewOf metric s := by
  have hname : metric ≠ upStreak other := (upStreak_names other hother metric hm).1.symm
  have hstreak : upStreak metric ≠ upStreak other := fun h => hne ((upStreak_names metric hm other hother).2 h)
  cases hvalue : s.2.get? other with
  | none => simp [countMetric, hvalue]
  | some value =>
    cases hprior : s.1.previous.get? other with
    | none => simp [viewOf, countMetric, hvalue, hprior, Dict.get?_insert, hname, hstreak, hne]
    | some prior => simp [viewOf, countMetric, hvalue, hprior, Dict.get?_insert, hname, hstreak, hne]

theorem get?_countMetric (h : key ≠ upStreak metric) (s : StreakState F × Dict String F) :
    (countMetric metric s).2.get? key = s.2.get? key := by
  unfold countMetric
  split
  · rfl
  · rw [Dict.get?_insert, if_neg h]

theorem viewOf_fold_other (hm : metric ∈ streakMetrics) {metrics : List String}
    (hsub : ∀ m ∈ metrics, m ∈ streakMetrics) (hnot : metric ∉ metrics) (s : StreakState F × Dict String F) :
    viewOf metric (metrics.foldl (fun s m => countMetric m s) s) = viewOf metric s := by
  induction metrics generalizing s with
  | nil => rfl
  | cons m metrics ih =>
    rw [List.mem_cons, not_or] at hnot
    rw [List.foldl_cons, ih (fun m' hm' => hsub m' (List.mem_cons_of_mem _ hm')) hnot.2,
      viewOf_countMetric_other hm (hsub m List.mem_cons_self) hnot.1]

/-- The metrics of one filing do not meet. -/
theorem viewOf_fold (hm : metric ∈ streakMetrics) {metrics : List String}
    (hsub : ∀ m ∈ metrics, m ∈ streakMetrics) (hnodup : metrics.Nodup) (hin : metric ∈ metrics)
    (s : StreakState F × Dict String F) :
    viewOf metric (metrics.foldl (fun s m => countMetric m s) s) = (viewOf metric s).count := by
  induction metrics generalizing s with
  | nil => cases hin
  | cons m metrics ih =>
    rw [List.nodup_cons] at hnodup
    have hsub' : ∀ m' ∈ metrics, m' ∈ streakMetrics := fun m' hm' => hsub m' (List.mem_cons_of_mem _ hm')
    rw [List.foldl_cons]
    by_cases heq : metric = m
    · subst heq
      rw [viewOf_fold_other hm hsub' hnodup.1, viewOf_countMetric hm]
    · have hrest : metric ∈ metrics := (List.mem_cons.mp hin).resolve_left heq
      rw [ih hsub' hnodup.2 hrest, viewOf_countMetric_other hm (hsub m List.mem_cons_self) heq]

theorem get?_fold {metrics : List String} (h : ∀ m ∈ metrics, key ≠ upStreak m)
    (s : StreakState F × Dict String F) :
    (metrics.foldl (fun s m => countMetric m s) s).2.get? key = s.2.get? key := by
  induction metrics generalizing s with
  | nil => rfl
  | cons m metrics ih =>
    rw [List.foldl_cons, ih (fun m' hm' => h m' (List.mem_cons_of_mem _ hm')),
      get?_countMetric (h m List.mem_cons_self)]

theorem viewOf_countStreaks (hm : metric ∈ streakMetrics) (s : StreakState F) (filing : Filing F) :
    viewOf metric ((countStreaks s filing).1, (countStreaks s filing).2.ratios) =
      (viewOf metric (s, filing.ratios)).count :=
  viewOf_fold hm (fun _ h => h) (by decide) hm (s, filing.ratios)

theorem get?_countStreaks (h : ∀ m ∈ streakMetrics, key ≠ upStreak m) (s : StreakState F)
    (filing : Filing F) : (countStreaks s filing).2.ratios.get? key = filing.ratios.get? key :=
  get?_fold h (s, filing.ratios)

/-- The state of the second pass after some filings. -/
structure Counted (s : StreakState F) (filings : List (Filing F)) : Prop where
  previous : ∀ m ∈ streakMetrics, s.previous.get? m = (reported m filings).getLast?
  streaks : ∀ m ∈ streakMetrics, (s.streaks.get? m).getD 0 = rises (reported m filings)

theorem Counted.step {s : StreakState F} {filings : List (Filing F)} (h : Counted s filings)
    (filing : Filing F) : Counted (countStreaks s filing).1 (filings ++ [filing]) := by
  have hview : ∀ m ∈ streakMetrics,
      (countStreaks s filing).1.previous.get? m = (reported m (filings ++ [filing])).getLast? ∧
      ((countStreaks s filing).1.streaks.get? m).getD 0 = rises (reported m (filings ++ [filing])) := by
    intro m hm
    have hstep := viewOf_countStreaks hm s filing
    rw [MetricView.ext_iff] at hstep
    obtain ⟨hprevious, hstreak, _, _⟩ := hstep
    rw [show (countStreaks s filing).1.previous.get? m = _ from hprevious,
      show ((countStreaks s filing).1.streaks.get? m).getD 0 = _ from hstreak, reported_concat]
    cases hvalue : filing.ratios.get? m with
    | none => simp [viewOf, MetricView.count, hvalue, h.previous m hm, h.streaks m hm]
    | some value =>
      have hrises := rises_concat (reported m filings) value
      rw [← h.previous m hm] at hrises
      simp only [viewOf, MetricView.count, hvalue, Option.toList_some, List.getLast?_concat, true_and,
        hrises, h.streaks m hm]
      cases hprior : s.previous.get? m with
      | some prior => rfl
      | none =>
        -- nothing reported yet, so nothing has risen
        have hnone : reported m filings = [] := by
          rw [← List.getLast?_eq_none_iff, ← h.previous m hm, hprior]
        rw [hnone]
        rfl
  exact ⟨fun m hm => (hview m hm).1, fun m hm => (hview m hm).2⟩

theorem Counted.run (filings : List (Filing F)) :
    Counted (loopState countStreaks noStreaks filings) filings := by
  induction filings using List.reverseRecOn with
  | nil => exact ⟨fun _ _ => rfl, fun _ _ => rfl⟩
  | append_singleton filings filing ih =>
    rw [loopState_concat]
    exact ih.step filing

end SecondPass

section Passes
variable {F : Type} [NumPy F]

@[simp] theorem length_timeline (filings : List (Filing F)) :
    (timeline filings).length = filings.length := by
  rw [timeline, length_loopMap, length_loopMap]

/-- What a ticker's timeline carries once its newest filing is out. -/
structure Discloses (filings : List (Filing F)) (filing : Filing F) (ratios : Dict String F) : Prop where
  eps : ratios.get? "eps" = (newestAnnualEps (filings ++ [filing])).or (filing.ratios.get? "eps")
  streak : ∀ m ∈ streakMetrics, ratios.get? (upStreak m) =
    match filing.ratios.get? m with
    | some _ => some (lit (rises (reported m (filings ++ [filing]))))
    | none => filing.ratios.get? (upStreak m)
  figures : ∀ key, key ≠ "eps" → (∀ m ∈ streakMetrics, key ≠ upStreak m) →
    ratios.get? key = filing.ratios.get? key

theorem timeline_concat (filings : List (Filing F)) (filing : Filing F) :
    ∃ ratios, timeline (filings ++ [filing]) = timeline filings ++ [⟨filing.filed, ratios, none⟩] ∧
      Discloses filings filing ratios := by
  have hcounted := Counted.run (loopMap carryEps none filings)
  generalize heps : newestAnnualEps (filings ++ [filing]) = eps
  generalize hs : loopState countStreaks noStreaks (loopMap carryEps none filings) = s at hcounted
  have hfigures : ∀ key, key ≠ "eps" → (withEps eps filing).ratios.get? key = filing.ratios.get? key :=
    fun key h => get?_withEps eps filing h
  refine ⟨(countStreaks s (withEps eps filing)).2.ratios, ?_, ?_, ?_, ?_⟩
  · rw [timeline, carryEps_concat, heps, loopMap_concat, hs]
    rfl
  · rw [get?_countStreaks fun m hm => (upStreak_ne_eps m hm).1.symm, withEps, get?_setIfSome, if_pos rfl, heps]
  · intro m hm
    have hne : m ≠ "eps" := (upStreak_ne_eps m hm).2
    have hstep := viewOf_countStreaks hm s (withEps eps filing)
    rw [MetricView.ext_iff] at hstep
    have hwritten := hstep.2.2.2
    have hvalue := hfigures m hne
    have hold := hfigures (upStreak m) (upStreak_ne_eps m hm).1
    have hrun := (hcounted.step (withEps eps filing)).streaks m hm
    rw [show ((countStreaks s (withEps eps filing)).1.streaks.get? m).getD 0 = _ from hstep.2.1,
      reported_concat, reported_carryEps hne, hvalue, ← reported_concat] at hrun
    rw [show (countStreaks s (withEps eps filing)).2.ratios.get? (upStreak m) = _ from hwritten]
    cases hreports : filing.ratios.get? m with
    | none => simp [viewOf, MetricView.count, hvalue, hreports, hold]
    | some value =>
      simp only [viewOf, MetricView.count, hvalue, hreports] at hrun ⊢
      rw [hrun]
  · intro key hkey hstreak
    rw [get?_countStreaks hstreak, hfigures key hkey]

end Passes

end QuantAgent.DataSource
