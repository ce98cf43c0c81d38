import QuantAgent.Features.Builders

namespace QuantAgent.Features
set_option autoImplicit true

/-- Caches of two stores that hold shared series under the same keys. -/
structure SharedCaches (S T : PreparedFeatureStore F) (n : ℕ) (c c' : FeatureCaches F) : Prop where
  metric : ∀ k, Option.Rel (Shared S T n) (c.metric.get? k) (c'.metric.get? k)
  rolling : ∀ k, Option.Rel (Shared S T n) (c.rolling.get? k) (c'.rolling.get? k)
  condition : ∀ k, Option.Rel (Shared S T n) (c.condition.get? k) (c'.condition.get? k)

theorem relate_insert [DecidableEq κ] {V : α → β → Prop} {d : Dict κ α} {d' : Dict κ β}
    (h : ∀ k, Option.Rel V (d.get? k) (d'.get? k)) (key : κ) (hab : V a b) (k : κ) :
    Option.Rel V ((d.insert key a).get? k) ((d'.insert key b).get? k) := by
  rw [Dict.get?_insert, Dict.get?_insert]
  split
  · exact .some hab
  · exact h k

theorem relate_mem [DecidableEq κ] {V : α → β → Prop} {d : Dict κ α} {d' : Dict κ β}
    (h : Option.Rel V (d.get? k) (d'.get? k)) : k ∈ d ↔ k ∈ d' := by
  have hnone : d.get? k = none ↔ d'.get? k = none := by
    cases hd : d.get? k <;> cases hd' : d'.get? k <;> rw [hd, hd'] at h <;> cases h <;> simp
  exact not_iff_not.mp (Dict.get?_eq_none_iff.symm.trans (hnone.trans Dict.get?_eq_none_iff))

theorem SharedCaches.empty : SharedCaches S T n .empty .empty :=
  ⟨fun _ => .none, fun _ => .none, fun _ => .none⟩

section
variable {F : Type} {S T : PreparedFeatureStore F}

theorem Related.cachedMetric (key : String) :
    Related (SharedCaches S T n) (Option.Rel (Shared S T n)) (cachedMetric key) (cachedMetric key) :=
  .get_bind fun _ _ hc => .pure (hc.metric key)

theorem Related.cacheMetric (key : String) {x y : List F} (hx : Shared S T n x y) :
    Related (SharedCaches S T n) (fun _ _ => True) (cacheMetric key x) (cacheMetric key y) :=
  .modify fun _ _ hc => ⟨relate_insert hc.metric key hx, hc.rolling, hc.condition⟩

theorem Related.defaultMetric (key : String) {x y : List F} (hx : Shared S T n x y) :
    Related (SharedCaches S T n) (fun _ _ => True) (defaultMetric key x) (defaultMetric key y) := by
  refine .modify fun c c' hc => ?_
  have hmem : key ∈ c.metric ↔ key ∈ c'.metric := relate_mem (hc.metric key)
  by_cases hkey : key ∈ c.metric
  · rw [if_pos hkey, if_pos (hmem.mp hkey)]
    exact hc
  · rw [if_neg hkey, if_neg (hmem.not.mp hkey)]
    exact ⟨relate_insert hc.metric key hx, hc.rolling, hc.condition⟩

theorem Related.memoised (key : String) {b b' : Build F (List F)}
    (hb : Related (SharedCaches S T n) (Shared S T n) b b') :
    Related (SharedCaches S T n) (Shared S T n) (memoised key b) (memoised key b') := by
  refine (Related.cachedMetric key).bind fun x y hxy => ?_
  cases hxy with
  | some hx => exact .pure hx
  | none => exact hb.bind fun _ _ hx => (Related.cacheMetric key hx).bind fun _ _ _ => .pure hx

theorem Related.cached (key : String) {x y : List F} (hx : Shared S T n x y) :
    Related (SharedCaches S T n) (Shared S T n) (do Features.cacheMetric key x; pure x)
      (do Features.cacheMetric key y; pure y) :=
  (Related.cacheMetric key hx).bind fun _ _ _ => .pure hx

variable [NumPy F] (h : SamePast S T n)
include h

theorem Related.trueRange : Related (SharedCaches S T n) (Shared S T n) S.trueRange T.trueRange :=
  Related.memoised _ (.pure (.trueRangeValues h))

theorem Related.dailyReturns :
    Related (SharedCaches S T n) (Shared S T n) S.dailyReturns T.dailyReturns :=
  Related.memoised _ (.pure (.dailyReturnValues h))

theorem Related.atr (period : ℕ) :
    Related (SharedCaches S T n) (Shared S T n) (S.atr period) (T.atr period) :=
  Related.memoised _ ((Related.trueRange h).bind fun _ _ hx => .pure (.wilder h hx period))

/-- Every builder keeps the caches of two stores with one past alike. -/
theorem Related.build (kept : Kept) :
    Related (SharedCaches S T n) (Shared S T n) (S.build kept) (T.build kept) := by
  cases kept with
  | trueRange => exact Related.trueRange h
  | dailyReturns => exact Related.dailyReturns h
  | atr period => exact Related.atr h period
  | oscillator family part =>
    have hline := Shared.oscillatorLine h family
    refine (Related.defaultMetric _ (.oscillatorPart h hline .line)).bind fun _ _ _ => ?_
    refine (Related.defaultMetric _ (.oscillatorPart h hline .signal)).bind fun _ _ _ => ?_
    refine (Related.defaultMetric _ (.oscillatorPart h hline .hist)).bind fun _ _ _ => ?_
    exact .pure (.oscillatorPart h hline part)
  | directional kind period =>
    refine (Related.cachedMetric _).bind fun x y hxy => ?_
    cases hxy with
    | some hx => exact .pure hx
    | none =>
      refine (Related.atr h period).bind fun _ _ hx => ?_
      refine (Related.cacheMetric _ (.directionalSeries h hx period .adx)).bind fun _ _ _ => ?_
      refine (Related.cacheMetric _ (.directionalSeries h hx period .plusDi)).bind fun _ _ _ => ?_
      refine (Related.cacheMetric _ (.directionalSeries h hx period .minusDi)).bind fun _ _ _ => ?_
      exact .pure (.directionalSeries h hx period kind)

section Calls
variable {ms ms' : String → Build F (List F)}
variable (hms : ∀ name, Related (SharedCaches S T n) (Shared S T n) (ms name) (ms' name))
include hms

theorem Related.rollingMetricWith (metric : String) (window : ℕ) (aggregate : Aggregate) :
    Related (SharedCaches S T n) (Shared S T n) (S.rollingMetricWith ms metric window aggregate)
      (T.rollingMetricWith ms' metric window aggregate) := by
  refine .get_bind fun c c' hc => ?_
  have hkey := hc.rolling (normalName metric, window, aggregate)
  cases hx : c.rolling.get? (normalName metric, window, aggregate) <;>
    cases hy : c'.rolling.get? (normalName metric, window, aggregate) <;> rw [hx, hy] at hkey <;>
    cases hkey
  · refine (hms metric).bind fun _ _ hx => ?_
    have hseries := Shared.rollingMetricValues h hx window aggregate
    refine Related.bind (.modify fun c c' hc => ?_) fun _ _ _ => .pure hseries
    exact ⟨hc.metric, relate_insert hc.rolling _ hseries, hc.condition⟩
  · rename_i hxy
    exact .pure hxy

theorem Related.derivedRatioSeries (ratio : String × String × ℕ) :
    Related (SharedCaches S T n) (Shared S T n) (S.derivedRatioSeries ms ratio)
      (T.derivedRatioSeries ms' ratio) := by
  refine (hms ratio.1).bind fun _ _ hx => ?_
  refine .ite Iff.rfl (fun _ => ?_) fun _ => (hms _).bind fun _ _ hy => .pure (hx.zipWith hy _)
  exact (Related.rollingMetricWith h hms _ _ _).bind fun _ _ hy => .pure (hx.zipWith hy _)

theorem Related.derivedFromBars (hbars : S.bars = [] ↔ T.bars = []) (spec : DerivedSeries) :
    Related (SharedCaches S T n) (Shared S T n) (S.derivedFromBars ms spec)
      (T.derivedFromBars ms' spec) := by
  cases spec with
  | realizedVolatility window =>
    exact (Related.dailyReturns h).bind fun _ _ hx => .pure (.realizedVolatility h hx window)
  | relativeStrength window =>
    exact .ite (and_congr_right fun _ => hbars.not) (fun _ => .throw _)
      fun _ => .pure (.relativeStrength h window)
  | percentile base => exact (hms base).bind fun _ _ hx => .pure (.percentileRanks h hx)

theorem Related.buildMetric (hbars : S.bars = [] ↔ T.bars = []) (metric normalized : String) :
    Related (SharedCaches S T n) (Shared S T n) (S.buildMetric ms metric normalized)
      (T.buildMetric ms' metric normalized) := by
  have hrow := Shared.rowMetricSeries h metric normalized
  unfold PreparedFeatureStore.buildMetric
  cases derivedRatio metric with
  | some ratio => exact (Related.derivedRatioSeries h hms ratio).bind fun _ _ hx => Related.cached _ hx
  | none =>
    cases derivedSeriesSpec normalized with
    | some spec => exact (Related.derivedFromBars h hms hbars spec).bind fun _ _ hx => Related.cached _ hx
    | none =>
      cases catalogMetric? normalized with
      | none => exact Related.cached _ hrow
      | some entry =>
        refine .ite (and_congr_right fun _ => hbars.not) (fun _ => .throw _) fun _ => ?_
        refine Related.bind (Related.catalogSeries h entry (fun name _ => hms name)
          fun kept _ => Related.build h kept) fun _ _ hx => ?_
        exact Related.cached _ (hrow.zipWith hx _)

theorem Related.metricSeriesWith (hbars : S.bars = [] ↔ T.bars = []) (metric : String) :
    Related (SharedCaches S T n) (Shared S T n) (S.metricSeriesWith ms metric)
      (T.metricSeriesWith ms' metric) := by
  refine (Related.cachedMetric _).bind fun x y hxy => ?_
  cases hxy with
  | some hx => exact .pure hx
  | none =>
    have hprice := Shared.priceColumn h (canonicalMetric metric)
    cases hs : S.priceColumn (canonicalMetric metric) <;>
      cases ht : T.priceColumn (canonicalMetric metric) <;> rw [hs, ht] at hprice <;> cases hprice
    · refine .ite Iff.rfl (fun _ => ?_) fun _ => Related.buildMetric h hms hbars _ _
      exact Related.cached _ ((Shared.column h _).zipWith (.rsiSeries h 14) _)
    · rename_i hx
      exact .pure hx

end Calls

/-- The metrics of two stores with one past are alike, and so are the caches they leave. -/
theorem Related.metricSeriesAt (hbars : S.bars = [] ↔ T.bars = []) (depth : ℕ) (metric : String) :
    Related (SharedCaches S T n) (Shared S T n) (S.metricSeriesAt depth metric)
      (T.metricSeriesAt depth metric) := by
  induction depth generalizing metric with
  | zero => exact .throw _
  | succ depth ih => exact Related.metricSeriesWith h ih hbars metric

theorem Related.metricSeries (hbars : S.bars = [] ↔ T.bars = []) (metric : String) :
    Related (SharedCaches S T n) (Shared S T n) (S.metricSeries metric) (T.metricSeries metric) :=
  Related.metricSeriesAt h hbars _ metric

theorem Related.rollingMetric (hbars : S.bars = [] ↔ T.bars = []) (metric : String) (window : ℕ)
    (aggregate : Aggregate) :
    Related (SharedCaches S T n) (Shared S T n) (S.rollingMetric metric window aggregate)
      (T.rollingMetric metric window aggregate) :=
  Related.rollingMetricWith h (Related.metricSeries h hbars) _ _ _

end
end QuantAgent.Features
