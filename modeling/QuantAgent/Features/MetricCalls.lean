import QuantAgent.Features.Builders

namespace QuantAgent.Features
set_option autoImplicit true

/-- The metrics `_metric_series` asks itself for. -/
def metricCalls (metric : String) : List String :=
  match derivedRatio metric, derivedSeriesSpec (canonicalMetric metric),
    catalogMetric? (canonicalMetric metric) with
  | some ratio, _, _ => [ratio.1, ratio.2.1]
  | none, some spec, _ => spec.calls
  | none, none, some entry => entry.calls
  | none, none, none => []

/-- The catalog metrics that call for names longer than their own. -/
def shortNames : List String := ["squeeze_breakout", "stoch_d_3"]

def metricRank (metric : String) : ℕ :=
  metric.length + if canonicalMetric metric ∈ shortNames then 3 else 0

theorem metricRank_le (metric : String) : metricRank metric ≤ metric.length + 3 := by
  unfold metricRank
  split <;> omega

theorem lookup_eq_some {l : List (String × α)} (h : l.lookup k = some v) : (k, v) ∈ l := by
  induction l with
  | nil => cases h
  | cons e l ih =>
    rw [List.lookup_cons] at h
    by_cases hk : k = e.1
    · subst hk
      rw [beq_self_eq_true] at h
      cases h
      exact .head _
    · rw [beq_eq_false_iff_ne.mpr hk] at h
      exact .tail _ (ih h)

/-- What an alias or a percent key stands for. -/
def StandsFor (name canonical : String) : Prop := (name, canonical) ∈ percentScaled ++ aliases

theorem canonicalMetric_cases (metric : String) :
    canonicalMetric metric = normalName metric ∨
      StandsFor (normalName metric) (canonicalMetric metric) := by
  unfold StandsFor
  rw [List.mem_append]
  cases hpercent : percentScaled.lookup (normalName metric) with
  | some key =>
    have hkey : canonicalMetric metric = key := by simp only [canonicalMetric, hpercent]
    rw [hkey]
    exact .inr (.inl (lookup_eq_some hpercent))
  | none =>
    cases halias : aliases.lookup (normalName metric) with
    | some key =>
      have hkey : canonicalMetric metric = key := by
        simp only [canonicalMetric, hpercent, halias, Option.getD_some]
      rw [hkey]
      exact .inr (.inr (lookup_eq_some halias))
    | none =>
      left
      simp only [canonicalMetric, hpercent, halias, Option.getD_none]

theorem length_normalName_le (metric : String) : (normalName metric).length ≤ metric.length := by
  rw [normalName, length_pyLower]
  exact length_pyStrip_le metric

/-- What the other tables say of an alias and of what it stands for. -/
theorem StandsFor.table (h : StandsFor name canonical) :
    derivedRatios.lookup name = none ∧ derivedRatios.lookup canonical = none ∧
      derivedSeriesSpec canonical = none ∧
      (catalogMetric? canonical).all (fun entry => entry.calls.isEmpty) = true ∧
      metricRank canonical ≤ name.length + 10 := by
  have hall : ∀ e ∈ percentScaled ++ aliases,
      derivedRatios.lookup e.1 = none ∧ derivedRatios.lookup e.2 = none ∧
        derivedSeriesSpec e.2 = none ∧
        (catalogMetric? e.2).all (fun entry => entry.calls.isEmpty) = true ∧
        metricRank e.2 ≤ e.1.length + 10 := by decide +kernel
  exact hall _ h

theorem StandsFor.ratio (h : StandsFor name canonical) :
    derivedRatios.lookup name = none ∧ derivedRatios.lookup canonical = none :=
  ⟨h.table.1, h.table.2.1⟩

theorem StandsFor.calls (h : StandsFor name canonical) : derivedSeriesSpec canonical = none ∧
    (catalogMetric? canonical).all (fun entry => entry.calls.isEmpty) = true :=
  ⟨h.table.2.2.1, h.table.2.2.2.1⟩

theorem StandsFor.rank (h : StandsFor name canonical) :
    metricRank canonical ≤ name.length + 10 := h.table.2.2.2.2

/-- A ratio is named by its canonical name: no alias leads to one or away from one. -/
theorem derivedRatio_eq_lookup (metric : String) :
    derivedRatio metric = derivedRatios.lookup (canonicalMetric metric) := by
  rcases canonicalMetric_cases metric with hname | hstands
  · rw [hname, derivedRatio]
  · rw [derivedRatio, hstands.ratio.1, hstands.ratio.2]

theorem length_canonicalMetric_le {metric : String} (h : metricCalls metric ≠ []) :
    (canonicalMetric metric).length ≤ metric.length := by
  rcases canonicalMetric_cases metric with hname | hstands
  · rw [hname]
    exact length_normalName_le metric
  · obtain ⟨hspec, hcatalog⟩ := hstands.calls
    rw [metricCalls, derivedRatio_eq_lookup, hstands.ratio.2, hspec] at h
    cases hentry : catalogMetric? (canonicalMetric metric) with
    | none => simp [hentry] at h
    | some entry =>
      rw [hentry, Option.all_some, List.isEmpty_iff] at hcatalog
      simp [hentry, hcatalog] at h

theorem metricRank_canonical_le (front : String) :
    metricRank (canonicalMetric front) ≤ front.length + 10 := by
  have hlen := length_normalName_le front
  rcases canonicalMetric_cases front with hname | hstands
  · have hrank := metricRank_le (canonicalMetric front)
    rw [hname] at hrank ⊢
    omega
  · have hrank := hstands.rank
    omega

/-- The names a test of the catalog calls for rank below the names it accepts. -/
def CallsBelow (test : String → Option CatalogMetric) : Prop :=
  ∀ name entry, test name = some entry → ∀ r ∈ entry.calls,
    metricRank r < name.length + if name ∈ shortNames then 3 else 0

theorem CallsBelow.pattern {metric : ℕ → CatalogMetric}
    (h : ∀ n, ∀ r ∈ (metric n).calls, metricRank r < front.length + (toString n).length) :
    CallsBelow (pattern front tail metric) := by
  intro name entry hentry r hr
  obtain ⟨n, hn, rfl⟩ := Option.map_eq_some_iff.mp hentry
  obtain ⟨ds, hname, hds⟩ := numbered?_eq_some hn
  have hdigits := length_toString_le hds
  have hlen : name.length = front.length + (ds.length + tail.length) := by
    rw [← String.length_toList, hname, List.length_append, List.length_append,
      String.length_toList, String.length_toList]
  have hrank := h n r hr
  omega

theorem CallsBelow.exactly {metric : CatalogMetric} (h : ∀ r ∈ metric.calls,
    metricRank r < text.length + if text ∈ shortNames then 3 else 0) :
    CallsBelow (exactly text metric) := by
  intro name entry hentry r hr
  unfold Features.exactly at hentry
  split at hentry
  · rename_i hname
    cases hentry
    rw [hname]
    exact h r hr
  · cases hentry

theorem CallsBelow.none {test : String → Option CatalogMetric}
    (h : ∀ name entry, test name = some entry → entry.calls = []) : CallsBelow test := by
  intro name entry hentry r hr
  rw [h name entry hentry] at hr
  cases hr

theorem CallsBelow.spaced {metric : ℕ → CatalogMetric} (h : ∀ n, (metric n).calls = []) :
    CallsBelow fun name => (spaced? front name).map metric := by
  refine .none fun name entry hentry => ?_
  obtain ⟨n, _, rfl⟩ := Option.map_eq_some_iff.mp hentry
  exact h n

theorem CallsBelow.oscillator {metric : Oscillator → CatalogMetric} (h : ∀ part, (metric part).calls = []) :
    CallsBelow (oscillator family metric) := by
  refine .none fun name entry hentry => ?_
  simp only [Features.oscillator, Features.exactly, Option.or_eq_some_iff] at hentry
  rcases hentry with hentry | ⟨_, hentry | ⟨_, hentry⟩⟩ <;>
    cases (Option.ite_none_right_eq_some.mp hentry).2 <;> exact h _

theorem CallsBelow.drawdownRecovery : CallsBelow drawdownRecovery? := by
  intro name entry hentry r hr
  cases hafter : after? "drawdown_recovery_" name.toList with
  | none => simp [drawdownRecovery?, hafter] at hentry
  | some rest =>
    cases hdigits : digits? rest with
    | none => simp [drawdownRecovery?, hafter, hdigits] at hentry
    | some n =>
      simp only [drawdownRecovery?, hafter, hdigits, Option.bind_eq_bind, Option.bind_some,
        Option.pure_def, Option.some.injEq] at hentry
      subst hentry
      have hlen : name.length = 18 + rest.length := by
        rw [← String.length_toList, after?_eq_some hafter, List.length_append]
        rfl
      rw [CatalogMetric.calls, List.mem_singleton] at hr
      have hrank := metricRank_le r
      have hr : r.length = 9 + rest.length := by
        rw [hr, String.length_append, String.length_ofList, String.length_ofList]
        rfl
      omega

theorem metricRank_numbered (front : String) (n : ℕ) :
    metricRank (front ++ toString n) ≤ front.length + (toString n).length + 3 := by
  rw [← String.length_append]
  exact metricRank_le _

theorem catalogPatterns_callsBelow : ∀ test ∈ catalogPatterns, CallsBelow test := by
  have hfloor : ∀ n, ∀ r ∈ (CatalogMetric.atrTrailingFloor n).calls,
      metricRank r < "atr_trailing_floor_".length + (toString n).length := by
    intro n r hr
    have hrank := metricRank_numbered "donchian_high_" n
    have hlen : "donchian_high_".length = 14 ∧ "atr_trailing_floor_".length = 19 := ⟨rfl, rfl⟩
    cases List.mem_singleton.mp hr
    omega
  have hobv : ∀ n, ∀ r ∈ (CatalogMetric.obvSlope n).calls,
      metricRank r < "obv_slope_".length + (toString n).length := by
    intro n r hr
    have hrank := metricRank_le "obv"
    have hlen : "obv".length = 3 ∧ "obv_slope_".length = 10 := ⟨rfl, rfl⟩
    cases List.mem_singleton.mp hr
    omega
  have hadl : ∀ n, ∀ r ∈ (CatalogMetric.adlSlope n).calls,
      metricRank r < "adl_slope_".length + (toString n).length := by
    intro n r hr
    have hrank := metricRank_le "adl"
    have hlen : "adl".length = 3 ∧ "adl_slope_".length = 10 := ⟨rfl, rfl⟩
    cases List.mem_singleton.mp hr
    omega
  unfold catalogPatterns
  simp only [List.forall_mem_cons]
  repeat' apply And.intro
  all_goals first
    | with_reducible refine .exactly ?_
      first
        | exact fun _ hr => (List.not_mem_nil hr).elim
        | decide +kernel
    | with_reducible refine .pattern ?_
      first
        | exact fun _ _ hr => (List.not_mem_nil hr).elim
        | exact hfloor
        | exact hobv
        | exact hadl
    | exact .spaced fun _ => rfl
    | exact .oscillator fun _ => rfl
    | exact .drawdownRecovery
    | nofun

theorem catalogMetric?_calls (h : catalogMetric? name = some entry) (hr : r ∈ entry.calls) :
    metricRank r < name.length + if name ∈ shortNames then 3 else 0 := by
  obtain ⟨test, htest, hentry⟩ := List.exists_of_findSome?_eq_some h
  exact catalogPatterns_callsBelow test htest name entry hentry r hr

theorem derivedRatios_calls : ∀ e ∈ derivedRatios,
    metricRank e.2.1 < e.1.length ∧ metricRank e.2.2.1 < e.1.length := by decide +kernel

theorem derivedSeriesSpec_calls (h : derivedSeriesSpec name = some spec) (hr : r ∈ spec.calls) :
    metricRank r < name.length := by
  cases spec with
  | realizedVolatility window => cases hr
  | relativeStrength window => cases hr
  | percentile base =>
    have hbase : percentileBase? (normalName name) = some base := by
      cases hvol : numbered? "realized_volatility_" "d" (normalName name) <;>
        cases hstrength : numbered? "relative_strength_" "d" (normalName name) <;>
        simp [derivedSeriesSpec, hvol, hstrength] at h
      exact h
    cases List.mem_singleton.mp hr
    unfold percentileBase? at hbase
    cases hfront : before? "_percentile" (normalName name).toList with
    | none => simp [hfront] at hbase
    | some front =>
      have htext := congrArg List.length (before?_eq_some hfront)
      have hlen := length_normalName_le name
      rw [hfront, Option.bind_eq_bind, Option.bind_some, Option.ite_none_right_eq_some] at hbase
      have hrank := metricRank_canonical_le (String.ofList front)
      rw [Option.some.inj hbase.2, String.length_ofList] at hrank
      have htail : "_percentile".toList.length = 11 := rfl
      rw [List.length_append, String.length_toList, htail] at htext
      omega

/-- The recursion of the metrics ends: what a metric calls for ranks below it. -/
theorem metricRank_calls (h : r ∈ metricCalls metric) : metricRank r < metricRank metric := by
  have hlen := length_canonicalMetric_le (List.ne_nil_of_mem h)
  have hrank : (canonicalMetric metric).length +
      (if canonicalMetric metric ∈ shortNames then 3 else 0) ≤ metricRank metric :=
    Nat.add_le_add_right hlen _
  rw [metricCalls, derivedRatio_eq_lookup] at h
  cases hratio : derivedRatios.lookup (canonicalMetric metric) with
  | some ratio =>
    obtain ⟨hnumerator, hdenominator⟩ := derivedRatios_calls _ (lookup_eq_some hratio)
    simp only [hratio, List.mem_cons, List.not_mem_nil, or_false] at h hnumerator hdenominator
    rcases h with rfl | rfl
    · omega
    · omega
  | none =>
    cases hspec : derivedSeriesSpec (canonicalMetric metric) with
    | some spec =>
      simp only [hratio, hspec] at h
      exact ((derivedSeriesSpec_calls hspec h).trans_le (Nat.le_add_right _ _)).trans_le hrank
    | none =>
      cases hentry : catalogMetric? (canonicalMetric metric) with
      | none => simp [hratio, hspec, hentry] at h
      | some entry =>
        simp only [hratio, hspec, hentry] at h
        exact (catalogMetric?_calls hentry h).trans_le hrank

end QuantAgent.Features
