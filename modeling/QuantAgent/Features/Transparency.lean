import QuantAgent.Features.Kept
import QuantAgent.Features.Simulation

namespace QuantAgent.Features
set_option autoImplicit true

namespace PreparedFeatureStore
variable {F : Type} [NumPy F] (S : PreparedFeatureStore F)

/-- The caches after a sequence of metric queries on a freshly built store. -/
def cachesAfter (queries : List String) : FeatureCaches F :=
  queries.foldl (fun c metric => ((S.metricSeries metric).exec c).2) .empty

/-- What `_metric_series(metric)` returns on a freshly built store. -/
def fresh (metric : String) : Except PyError (List F) := ((S.metricSeries metric).exec .empty).1

/-- The builders a metric calls. -/
def metricBuilders (metric : String) : List Kept :=
  match derivedRatio metric, derivedSeriesSpec (canonicalMetric metric),
    catalogMetric? (canonicalMetric metric) with
  | some _, _, _ => []
  | none, some spec, _ => spec.builders
  | none, none, some entry => if entry.window = some 0 ∧ S.bars ≠ [] then [] else entry.builders
  | none, none, none => []

/-- The series a metric leaves in the cache beside its own. -/
def leaves (metric : String) : List Kept :=
  ((S.metricBuilders metric).flatMap Kept.touched).filter fun e => e.key ≠ canonicalMetric metric

/-- What the rows make of a computed series: they overrule it, or there is nothing else to read. -/
def shown (metric : String) (computed : List F) : List F :=
  if (catalogMetric? (canonicalMetric metric)).isSome then
    mergedSeries (S.rowMetricSeries metric (canonicalMetric metric)) computed
  else S.rowMetricSeries metric (canonicalMetric metric)

end PreparedFeatureStore

/-- A metric that reads the rows for what they carry under its name. -/
def ReadsRows (metric : String) : Prop :=
  canonicalMetric metric ∉ ["price", "close", "open", "high", "low", "volume", "rsi"] ∧
    derivedRatio metric = none ∧ derivedSeriesSpec (canonicalMetric metric) = none

/-- The metrics read by a set `Q` of names agree with each other: two spellings of one metric find
the same values in the rows, and where one metric leaves the series of another in the cache, the rows
hold no other values for that one. -/
structure Agree {F : Type} [NumPy F] (S : PreparedFeatureStore F) (Q : String → Prop) : Prop where
  calls : ∀ m, Q m → ∀ r ∈ metricCalls m, Q r
  spelling : ∀ m, Q m → ∀ r, Q r → ReadsRows m → canonicalMetric m = canonicalMetric r →
    S.rowMetricSeries m (canonicalMetric m) = S.rowMetricSeries r (canonicalMetric r)
  left : ∀ m, Q m → ∀ e ∈ S.leaves m, ∀ r, Q r → canonicalMetric r = e.key →
    S.shown r (S.keptSeries e) = S.keptSeries e

namespace PreparedFeatureStore
variable {F : Type} [NumPy F] (S : PreparedFeatureStore F)

/-- `_metric_series` where nothing is cached and the metric is no price. -/
def computeMetric (ms : String → Build F (List F)) (metric normalized : String) : Build F (List F) :=
  if normalized = "rsi" then pure (mergedSeries (S.column Bar.rsi) (S.rsiSeries 14))
  else
    match derivedRatio metric, derivedSeriesSpec normalized, catalogMetric? normalized with
    | some ratio, _, _ => S.derivedRatioSeries ms ratio
    | none, some spec, _ => S.derivedFromBars ms spec
    | none, none, some entry =>
      if entry.window = some 0 ∧ S.bars ≠ [] then throw (.valueError "shape mismatch")
      else do
        return mergedSeries (S.rowMetricSeries metric normalized) (← S.catalogSeries ms entry)
    | none, none, none => pure (S.rowMetricSeries metric normalized)

variable {S}

theorem exec_metricSeriesWith_hit (ms : String → Build F (List F))
    (h : s.metric.get? (canonicalMetric metric) = some x) :
    (S.metricSeriesWith ms metric).exec s = (.ok x, s) := by
  unfold metricSeriesWith cachedMetric
  rw [bind_assoc, StateE.exec_get_bind, pure_bind, h]
  rfl

theorem exec_metricSeriesWith_price (ms : String → Build F (List F))
    (h : s.metric.get? (canonicalMetric metric) = none)
    (hprice : S.priceColumn (canonicalMetric metric) = some x) :
    (S.metricSeriesWith ms metric).exec s = (.ok x, s) := by
  unfold metricSeriesWith cachedMetric
  rw [bind_assoc, StateE.exec_get_bind, pure_bind, h]
  simp only [hprice]
  rfl

theorem exec_metricSeriesWith_miss (ms : String → Build F (List F))
    (h : s.metric.get? (canonicalMetric metric) = none)
    (hprice : S.priceColumn (canonicalMetric metric) = none) :
    (S.metricSeriesWith ms metric).exec s =
      (do
        let series ← S.computeMetric ms metric (canonicalMetric metric)
        cacheMetric (canonicalMetric metric) series
        pure series : Build F (List F)).exec s := by
  unfold metricSeriesWith cachedMetric computeMetric buildMetric
  rw [bind_assoc, StateE.exec_get_bind, pure_bind, h]
  simp only [hprice]
  by_cases hrsi : canonicalMetric metric = "rsi"
  · simp only [hrsi, if_true, pure_bind]
  · simp only [hrsi, if_false]
    cases derivedRatio metric with
    | some ratio => rfl
    | none =>
      cases derivedSeriesSpec (canonicalMetric metric) with
      | some spec => rfl
      | none =>
        cases catalogMetric? (canonicalMetric metric) with
        | none => rfl
        | some entry =>
          simp only
          split
          · rfl
          · simp only [bind_assoc, pure_bind]

/-- On a fresh store a metric that nothing derives is what the rows carry under its name. -/
theorem exec_metricSeries_row (hprice : S.priceColumn (canonicalMetric metric) = none)
    (hrsi : canonicalMetric metric ≠ "rsi") (hratio : derivedRatios.lookup (canonicalMetric metric) = none)
    (hspec : derivedSeriesSpec (canonicalMetric metric) = none)
    (hcatalog : catalogMetric? (canonicalMetric metric) = none) : ∃ caches,
      (S.metricSeries metric).exec .empty =
        (.ok (S.rowMetricSeries metric (canonicalMetric metric)), caches) := by
  have hmiss := exec_metricSeriesWith_miss (s := .empty) (S.metricSeriesAt (metric.length + 3))
    Dict.get?_empty hprice
  have hcompute : S.computeMetric (S.metricSeriesAt (metric.length + 3)) metric (canonicalMetric metric) =
      pure (S.rowMetricSeries metric (canonicalMetric metric)) := by
    rw [computeMetric, if_neg hrsi, derivedRatio_eq_lookup, hratio, hspec, hcatalog]
  rw [hcompute] at hmiss
  exact ⟨_, hmiss⟩

end PreparedFeatureStore

/-- Caches whose metric entries satisfy `P` and whose rolling volumes are right. -/
structure Holds {F : Type} [NumPy F] (S : PreparedFeatureStore F) (P : String → List F → Prop)
    (c : FeatureCaches F) : Prop where
  metric : c.metric.All P
  rolling : c.rolling.All fun key x => key.1 = "volume" →
    x = S.byTicker (rollingMetricValues key.2.1 key.2.2) (S.column Bar.volume)

/-- Under the key of `e` only the series that its builder gives. -/
def Pinned {F : Type} [NumPy F] (S : PreparedFeatureStore F) (P : String → List F → Prop)
    (e : Kept) : Prop := ∀ x, P e.key x ↔ x = S.keptSeries e

section Builders
variable {F : Type} [NumPy F] {S : PreparedFeatureStore F} {P : String → List F → Prop}

theorem Holds.empty : Holds S P .empty := ⟨.empty, .empty⟩

theorem Holds.mono {P' : String → List F → Prop} (h : Holds S P c) (hP : ∀ k x, P k x → P' k x) :
    Holds S P' c := ⟨fun k x hx => hP k x (h.metric k x hx), h.rolling⟩

theorem Holds.insert (h : Holds S P c) (hx : P key x) :
    Holds S P { c with metric := c.metric.insert key x } := ⟨h.metric.insert hx, h.rolling⟩

theorem Pinned.self (h : Pinned S P e) : P e.key (S.keptSeries e) := (h _).mpr rfl

theorem Yields.cacheMetric (h : P key x) : Yields (Holds S P) (cacheMetric key x) (.ok ⟨⟩) :=
  .modify fun _ hc => hc.insert h

theorem Yields.defaultMetric (h : P key x) : Yields (Holds S P) (defaultMetric key x) (.ok ⟨⟩) := by
  refine .modify fun c hc => ?_
  split
  · exact hc
  · exact hc.insert h

theorem Yields.memoised (h : Pinned S P e) (hb : Yields (Holds S P) b (.ok (S.keptSeries e))) :
    Yields (Holds S P) (memoised e.key b) (.ok (S.keptSeries e)) := by
  unfold Features.memoised cachedMetric
  rw [bind_assoc]
  refine .get_bind fun c hc => ?_
  rw [pure_bind]
  cases hx : c.metric.get? e.key with
  | some x =>
    rw [(h x).mp (hc.metric _ _ hx)]
    exact .pure _
  | none => exact hb.bind ((Yields.cacheMetric h.self).bind (.pure _))

theorem Yields.trueRange (h : Pinned S P .trueRange) :
    Yields (Holds S P) S.trueRange (.ok S.trueRangeValues) := by
  have hmemo := Yields.memoised h (.pure (S.keptSeries .trueRange))
  exact hmemo

theorem Yields.dailyReturns (h : Pinned S P .dailyReturns) :
    Yields (Holds S P) S.dailyReturns (.ok S.dailyReturnValues) := by
  have hmemo := Yields.memoised h (.pure (S.keptSeries .dailyReturns))
  exact hmemo

theorem Yields.atr (h : Pinned S P (.atr period)) (hrange : Pinned S P .trueRange) :
    Yields (Holds S P) (S.atr period) (.ok (S.wilder S.trueRangeValues period)) := by
  have hbuild : Yields (Holds S P) (S.trueRange >>= fun range => pure (S.wilder range period))
      (.ok (S.keptSeries (.atr period))) := (Yields.trueRange hrange).bind (.pure _)
  have hmemo := Yields.memoised h hbuild
  exact hmemo

theorem Yields.oscillator (family : OscillatorFamily) (part : Oscillator)
    (h : ∀ p, P (Kept.oscillator family p).key (S.keptSeries (.oscillator family p))) :
    Yields (Holds S P) (S.build (.oscillator family part))
      (.ok (S.keptSeries (.oscillator family part))) :=
  (Yields.defaultMetric (h .line)).bind <| (Yields.defaultMetric (h .signal)).bind <|
    (Yields.defaultMetric (h .hist)).bind (.pure _)

theorem exec_build_directional (kind : Directional) (period : ℕ) (s : FeatureCaches F) :
    (S.build (.directional kind period)).exec s =
      (match s.metric.get? (kind.key period) with
        | some series => pure series
        | none => do
          let atr ← S.atr period
          cacheMetric (Directional.adx.key period) (S.directionalSeries period atr .adx)
          cacheMetric (Directional.plusDi.key period) (S.directionalSeries period atr .plusDi)
          cacheMetric (Directional.minusDi.key period) (S.directionalSeries period atr .minusDi)
          pure (S.directionalSeries period atr kind) : Build F (List F)).exec s := rfl

/-- The directional series, where the one asked for may be about to get another value. -/
theorem exec_directional {P' : String → List F → Prop} (kind : Directional) (period : ℕ)
    (hs : Holds S P s) (hatr : Pinned S P (.atr period)) (hrange : Pinned S P .trueRange)
    (hcached : ∀ x, s.metric.get? (kind.key period) = some x →
      x = S.keptSeries (.directional kind period)) (hP : ∀ k x, P k x → P' k x)
    (h : ∀ kind', P' (kind'.key period) (S.keptSeries (.directional kind' period))) :
    ∃ s', (S.build (.directional kind period)).exec s =
      (.ok (S.keptSeries (.directional kind period)), s') ∧ Holds S P' s' := by
  rw [exec_build_directional]
  cases hx : s.metric.get? (kind.key period) with
  | some x =>
    rw [hcached x hx]
    exact ⟨s, rfl, hs.mono hP⟩
  | none =>
    obtain ⟨hresult, hs'⟩ := Yields.atr hatr hrange s hs
    rcases hatr : (S.atr period).exec s with ⟨r, s'⟩
    rw [hatr] at hresult hs'
    cases hresult
    exact ⟨_, StateE.exec_bind_ok hatr, (((hs'.mono hP).insert (h .adx)).insert
      (h .plusDi)).insert (h .minusDi)⟩

end Builders

namespace PreparedFeatureStore
variable {F : Type} [NumPy F] {S : PreparedFeatureStore F}

/-- Every key holds what its builder gives, whoever put it there. -/
def KeptOnly (S : PreparedFeatureStore F) (k : String) (x : List F) : Prop :=
  ∀ e : Kept, e.key = k → x = S.keptSeries e

theorem pinned_keptOnly (e : Kept) : Pinned S S.KeptOnly e := by
  intro x
  constructor
  · exact fun h => h e rfl
  · rintro rfl e' he
    rw [Kept.key_injective he]

omit [NumPy F] in
theorem priceColumn_key (e : Kept) : S.priceColumn e.key = none := by
  have hne : ∀ name, name.toList.take 3 ∉ keptFamilies → e.key ≠ name := fun name => e.key_ne
  simp only [priceColumn, hne "price" (by decide), hne "close" (by decide), hne "open" (by decide),
    hne "high" (by decide), hne "low" (by decide), hne "volume" (by decide), or_false, if_false]

theorem computeMetric_key (ms : String → Build F (List F)) {e : Kept}
    (hkey : canonicalMetric metric = e.key) :
    S.computeMetric ms metric e.key =
      match e.entry with
      | some entry =>
        if entry.window = some 0 ∧ S.bars ≠ [] then throw (.valueError "shape mismatch")
        else do return mergedSeries (S.rowMetricSeries metric e.key) (← S.catalogSeries ms entry)
      | none => pure (S.rowMetricSeries metric e.key) := by
  have hrsi : e.key ≠ "rsi" := e.key_ne (by decide)
  have hratio : derivedRatio metric = none := by
    rw [derivedRatio_eq_lookup, hkey, derivedRatios_key]
  rw [computeMetric, if_neg hrsi, hratio, derivedSeriesSpec_key, catalogMetric?_key]
  cases e.entry <;> rfl

theorem fresh_eq (hprice : S.priceColumn (canonicalMetric metric) = none) : S.fresh metric =
    ((S.computeMetric (S.metricSeriesAt (metric.length + 3)) metric (canonicalMetric metric)).exec
      .empty).1 := by
  have hmiss := exec_metricSeriesWith_miss (s := .empty) (S.metricSeriesAt (metric.length + 3))
    Dict.get?_empty hprice
  change ((S.metricSeriesWith (S.metricSeriesAt (metric.length + 3)) metric).exec .empty).1 = _
  rw [hmiss, StateE.exec_bind]
  rcases (S.computeMetric (S.metricSeriesAt (metric.length + 3)) metric
    (canonicalMetric metric)).exec .empty with ⟨r, s⟩
  cases r <;> rfl

/-- The catalog metric of the name of a key is the series of its builder. -/
theorem exec_catalogSeries_key (ms : String → Build F (List F)) {e : Kept} (he : e.entry = some entry)
    {P P' : String → List F → Prop} (hs : Holds S P s)
    (hpinned : ∀ e' ∈ e.touched, e'.entry = none → Pinned S P e')
    (hcached : ∀ x, s.metric.get? e.key = some x → x = S.keptSeries e)
    (hP : ∀ k x, P k x → P' k x) (hput : ∀ e' ∈ e.touched, P' e'.key (S.keptSeries e')) :
    ∃ s', (S.catalogSeries ms entry).exec s = (.ok (S.keptSeries e), s') ∧ Holds S P' s' := by
  cases e with
  | trueRange => cases he
  | dailyReturns => cases he
  | atr period => cases he
  | oscillator family part =>
    have hyields := Yields.oscillator family part (S := S) (P := P') fun p => by
      cases p <;> exact hput _ (by simp [Kept.touched])
    have hbuild : S.catalogSeries ms entry = S.build (.oscillator family part) := by
      cases family <;> cases he <;> rfl
    obtain ⟨hr, hs'⟩ := hyields s (hs.mono hP)
    rw [hbuild]
    exact ⟨_, Prod.ext hr rfl, hs'⟩
  | directional kind period =>
    cases he
    refine exec_directional kind period hs (hpinned _ (by simp [Kept.touched]) rfl)
      (hpinned _ (by simp [Kept.touched]) rfl) hcached hP fun kind' => ?_
    cases kind' <;> exact hput (.directional _ period) (by simp [Kept.touched])

/-- On a fresh store the rows overrule the series a builder gives under its key. -/
theorem fresh_key {e : Kept} (hkey : canonicalMetric metric = e.key)
    (hperiod : ∀ kind, e = .directional kind 0 → S.bars = []) :
    S.fresh metric = .ok (S.shown metric (S.keptSeries e)) := by
  rw [fresh_eq (by rw [hkey, priceColumn_key]), hkey, computeMetric_key _ hkey, shown, hkey,
    catalogMetric?_key]
  cases hentry : e.entry with
  | none => rfl
  | some entry =>
    have hwindow : ¬ (entry.window = some 0 ∧ S.bars ≠ []) := by
      rintro ⟨hzero, hbars⟩
      rcases e with _ | _ | p | ⟨_ | _ | _, part⟩ | ⟨kind, p⟩ <;> cases hentry <;> cases hzero
      exact hbars (hperiod kind rfl)
    obtain ⟨s', hexec, -⟩ := exec_catalogSeries_key (S.metricSeriesAt (metric.length + 3)) hentry
      (Holds.empty (P := S.KeptOnly)) (fun e' _ _ => pinned_keptOnly e') nofun (fun _ _ h => h)
      fun e' _ => (pinned_keptOnly e').self
    simp only [hwindow, if_false]
    rw [StateE.exec_bind_ok hexec]
    rfl

/-- A cached series that no query of `Q` can tell from a fresh one. -/
def Good (S : PreparedFeatureStore F) (Q : String → Prop) (k : String) (x : List F) : Prop :=
  (∀ r, Q r → canonicalMetric r = k → S.fresh r = .ok x) ∧
    ∀ m, Q m → ∀ e ∈ S.leaves m, e.key = k → x = S.keptSeries e

omit [NumPy F] in
theorem leaves_period (he : e ∈ S.leaves m) (kind : Directional) (hkind : e = .directional kind 0) :
    S.bars = [] := by
  obtain ⟨b, hb, htouched⟩ := List.mem_flatMap.mp (List.mem_filter.mp he).1
  have hb0 : ∃ kind', b = .directional kind' 0 := by
    subst hkind
    cases b <;> simp [Kept.touched] at htouched
    rename_i kind' period
    have hperiod : period = 0 := by omega
    exact ⟨kind', by rw [hperiod]⟩
  obtain ⟨kind', rfl⟩ := hb0
  unfold metricBuilders at hb
  cases hratio : derivedRatio m with
  | some ratio => simp [hratio] at hb
  | none =>
    cases hspec : derivedSeriesSpec (canonicalMetric m) with
    | some spec =>
      simp only [hratio, hspec] at hb
      cases spec <;> simp [DerivedSeries.builders] at hb
    | none =>
      cases hentry : catalogMetric? (canonicalMetric m) with
      | none => simp [hratio, hspec, hentry] at hb
      | some entry =>
        simp only [hratio, hspec, hentry] at hb
        by_contra hbars
        split at hb
        · cases hb
        · rename_i hwindow
          cases entry <;> simp [CatalogMetric.builders] at hb
          exact hwindow ⟨by rw [CatalogMetric.window, hb.2], hbars⟩

theorem Good.pinned (hQ : Agree S Q) (hm : Q m) (he : e ∈ S.leaves m) : Pinned S (S.Good Q) e := by
  intro x
  constructor
  · exact fun h => h.2 m hm e he rfl
  · rintro rfl
    refine ⟨fun r hr hkey => ?_, fun m' _ e' _ hkey => by rw [Kept.key_injective hkey]⟩
    rw [fresh_key hkey (leaves_period he), hQ.left m hm e he r hr hkey]

theorem fresh_length (h : S.fresh metric = .ok x) : x.length = S.size := by
  have hshared := Related.metricSeries (SamePast.refl S) Iff.rfl metric .empty .empty .empty
  have hresult : ((S.metricSeries metric).exec .empty).1 = .ok x := h
  rw [hresult] at hshared
  cases hshared.1 with
  | ok hx => exact hx.length

theorem fresh_volume : S.fresh "volume" = .ok (S.column Bar.volume) := by
  have hcanonical : canonicalMetric "volume" = "volume" := by decide +kernel
  have hprice : S.priceColumn (canonicalMetric "volume") = some (S.column Bar.volume) := by
    rw [hcanonical]
    rfl
  exact congrArg Prod.fst (exec_metricSeriesWith_price (s := .empty)
    (S.metricSeriesAt ("volume".length + 3)) Dict.get?_empty hprice)

theorem shared_of_fresh (h : S.fresh metric = .ok x) (h' : S.fresh metric = .ok y) :
    Shared S S S.size x y := by
  have hxy : x = y := Except.ok.inj (h.symm.trans h')
  subst hxy
  exact ⟨fresh_length h, fresh_length h, rfl⟩

theorem keptSeries_shared (S : PreparedFeatureStore F) (e : Kept) :
    Shared S S S.size (S.keptSeries e) (S.keptSeries e) := by
  have h := SamePast.refl S
  have hatr := fun period => Shared.wilder h (.trueRangeValues h) period
  cases e with
  | trueRange => exact .trueRangeValues h
  | dailyReturns => exact .dailyReturnValues h
  | atr period => exact hatr period
  | oscillator family part => exact .oscillatorPart h (.oscillatorLine h family) part
  | directional kind period => exact .directionalSeries h (hatr period) period kind

theorem metricCalls_congr (h : canonicalMetric m = canonicalMetric r) : metricCalls m = metricCalls r := by
  rw [metricCalls, metricCalls, derivedRatio_eq_lookup, derivedRatio_eq_lookup, h]

omit [NumPy F] in
theorem readsRows_of (hprice : S.priceColumn (canonicalMetric m) = none) (hrsi : canonicalMetric m ≠ "rsi")
    (hratio : derivedRatio m = none) (hspec : derivedSeriesSpec (canonicalMetric m) = none) :
    ReadsRows m := by
  refine ⟨?_, hratio, hspec⟩
  intro hmem
  simp only [List.mem_cons, List.not_mem_nil, or_false] at hmem
  rcases hmem with h | h | h | h | h | h | h <;> simp [priceColumn, h] at hprice hrsi

omit [NumPy F] in
theorem mem_leaves (hb : b ∈ S.metricBuilders m) (he : e ∈ b.touched)
    (hkey : e.key ≠ canonicalMetric m) : e ∈ S.leaves m :=
  List.mem_filter.mpr ⟨List.mem_flatMap.mpr ⟨b, hb, he⟩, by simpa using hkey⟩

theorem builders_entry {entry : CatalogMetric} (hb : b ∈ entry.builders) :
    b.entry = none ∨ b.entry = some entry := by
  cases entry <;> simp [CatalogMetric.builders] at hb <;>
    first
    | (subst hb; first | exact .inl rfl | exact .inr rfl)
    | (rcases hb with rfl | rfl <;> exact .inl rfl)

theorem touched_entry {b e : Kept} (hb : b.entry = none) (he : e ∈ b.touched) : e.entry = none := by
  rcases b with _ | _ | p | ⟨_ | _ | _, part⟩ | ⟨kind, p⟩ <;> cases hb <;>
    simp [Kept.touched] at he
  · rw [he]
    rfl
  · rw [he]
    rfl
  · rcases he with rfl | rfl <;> rfl

theorem Yields.build {P : String → List F → Prop} {b : Kept} (hb : b.entry = none)
    (h : ∀ e ∈ b.touched, Pinned S P e) : Yields (Holds S P) (S.build b) (.ok (S.keptSeries b)) := by
  rcases b with _ | _ | p | ⟨_ | _ | _, part⟩ | ⟨kind, p⟩ <;> cases hb
  · exact Yields.trueRange (h _ (.head _))
  · exact Yields.dailyReturns (h _ (.head _))
  · exact Yields.atr (h _ (.head _)) (h _ (.tail _ (.head _)))

section Step
variable {Q : String → Prop} {ms ms' : String → Build F (List F)}

theorem Yields.shared (h : Yields (Holds S (S.Good Q)) (ms name) (S.fresh name))
    (h' : Yields (Holds S (S.Good Q)) (ms' name) (S.fresh name)) :
    Related (fun s t => Holds S (S.Good Q) s ∧ Holds S (S.Good Q) t) (Shared S S S.size) (ms name)
      (ms' name) := by
  intro s t hst
  obtain ⟨hr, hs⟩ := h s hst.1
  obtain ⟨hr', ht⟩ := h' t hst.2
  rw [hr, hr']
  refine ⟨?_, hs, ht⟩
  cases hfresh : S.fresh name with
  | ok x => exact .ok (shared_of_fresh hfresh hfresh)
  | error e => exact .error e

theorem Yields.shared_of_ok {P : String → List F → Prop} {m m' : Build F (List F)}
    (h : Yields (Holds S P) m (.ok x)) (h' : Yields (Holds S P) m' (.ok x))
    (hx : Shared S S S.size x x) :
    Related (fun s t => Holds S P s ∧ Holds S P t) (Shared S S S.size) m m' := by
  intro s t hst
  obtain ⟨hr, hs⟩ := h s hst.1
  obtain ⟨hr', ht⟩ := h' t hst.2
  rw [hr, hr']
  exact ⟨.ok hx, hs, ht⟩

theorem Yields.rollingVolume (hms : Yields (Holds S (S.Good Q)) (ms "volume") (S.fresh "volume"))
    (window : ℕ) (aggregate : Aggregate) :
    Yields (Holds S (S.Good Q)) (S.rollingMetricWith ms "volume" window aggregate)
      (.ok (S.byTicker (rollingMetricValues window aggregate) (S.column Bar.volume))) := by
  have hname : normalName "volume" = "volume" := by decide +kernel
  unfold rollingMetricWith
  rw [hname]
  refine .get_bind fun c hc => ?_
  cases hx : c.rolling.get? ("volume", window, aggregate) with
  | some x =>
    rw [hc.rolling _ _ hx rfl]
    exact .pure _
  | none =>
    rw [fresh_volume] at hms
    refine hms.bind ((Yields.modify fun c hc => ?_).bind (.pure _))
    exact ⟨hc.metric, hc.rolling.insert fun _ => rfl⟩

theorem derivedRatios_denominator : ∀ e ∈ derivedRatios, e.2.2.2 ≠ 0 → e.2.2.1 = "volume" := by
  decide +kernel

theorem rowMetricSeries_spelling (hQ : Agree S Q) (hm : Q m) (hr : Q r)
    (hname : canonicalMetric m = canonicalMetric r) (hreads : ReadsRows m) :
    S.rowMetricSeries m (canonicalMetric m) = S.rowMetricSeries r (canonicalMetric m) := by
  have hspelling := hQ.spelling m hm r hr hreads hname
  rwa [← hname] at hspelling

/-- The part of a query behind the caches, where its builders keep nothing under its own key. -/
theorem computeMetric_shared (hQ : Agree S Q) (hm : Q m) (hr : Q r)
    (hname : canonicalMetric m = canonicalMetric r)
    (hms : ∀ name ∈ metricCalls m, Yields (Holds S (S.Good Q)) (ms name) (S.fresh name))
    (hms' : ∀ name ∈ metricCalls m, Yields (Holds S (S.Good Q)) (ms' name) (S.fresh name))
    (hprice : S.priceColumn (canonicalMetric m) = none)
    (hplain : ReadsRows m → ∀ e : Kept, ∀ entry,
      catalogMetric? (canonicalMetric m) = some entry → e.entry ≠ some entry) :
    Related (fun s t => Holds S (S.Good Q) s ∧ Holds S (S.Good Q) t) (Shared S S S.size)
      (S.computeMetric ms m (canonicalMetric m)) (S.computeMetric ms' r (canonicalMetric m)) := by
  have h := SamePast.refl S
  have hcalls := fun name hin => Yields.shared (hms name hin) (hms' name hin)
  have hpinned : ∀ e ∈ S.leaves m, Pinned S (S.Good Q) e := fun e he => Good.pinned hQ hm he
  unfold computeMetric
  by_cases hrsi : canonicalMetric m = "rsi"
  · simp only [hrsi, if_true]
    exact .pure ((Shared.column h _).zipWith (.rsiSeries h 14) _)
  simp only [hrsi, if_false]
  have hratio' : derivedRatio r = derivedRatio m := by
    rw [derivedRatio_eq_lookup, derivedRatio_eq_lookup, hname]
  rw [hratio']
  cases hratio : derivedRatio m with
  | some ratio =>
    have hin : ratio.1 ∈ metricCalls m ∧ ratio.2.1 ∈ metricCalls m := by simp [metricCalls, hratio]
    have hvolume : ratio.2.2 ≠ 0 → ratio.2.1 = "volume" :=
      derivedRatios_denominator _ (lookup_eq_some hratio)
    refine (hcalls _ hin.1).bind fun _ _ hx => ?_
    refine .ite Iff.rfl (fun hwindow => ?_) fun _ => (hcalls _ hin.2).bind fun _ _ hy =>
      .pure (hx.zipWith hy _)
    rw [hvolume hwindow] at hin ⊢
    have hroll := Yields.shared_of_ok (Yields.rollingVolume (hms _ hin.2) ratio.2.2 .avg)
      (Yields.rollingVolume (hms' _ hin.2) ratio.2.2 .avg)
      (.rollingMetricValues h (.column h Bar.volume) ratio.2.2 .avg)
    exact hroll.bind fun _ _ hy => .pure (hx.zipWith hy _)
  | none =>
    cases hspec : derivedSeriesSpec (canonicalMetric m) with
    | some spec =>
      have hcalls' : metricCalls m = spec.calls := by simp only [metricCalls, hratio, hspec]
      have hbuilders : S.metricBuilders m = spec.builders := by
        simp only [metricBuilders, hratio, hspec]
      cases spec with
      | realizedVolatility window =>
        have hreturns : Yields (Holds S (S.Good Q)) S.dailyReturns (.ok S.dailyReturnValues) := by
          have hb : Kept.dailyReturns ∈ S.metricBuilders m := by
            rw [hbuilders]
            exact .head _
          refine Yields.dailyReturns (hpinned _ (mem_leaves hb (.head _) ?_))
          intro hkey
          rw [← hkey, derivedSeriesSpec_key] at hspec
          cases hspec
        exact (Yields.shared_of_ok hreturns hreturns (.dailyReturnValues h)).bind fun _ _ hx =>
          .pure (.realizedVolatility h hx window)
      | relativeStrength window =>
        exact .ite Iff.rfl (fun _ => .throw _) fun _ => .pure (.relativeStrength h window)
      | percentile base =>
        have hin : base ∈ metricCalls m := hcalls' ▸ .head _
        exact (hcalls base hin).bind fun _ _ hx => .pure (.percentileRanks h hx)
    | none =>
      have hreads := readsRows_of hprice hrsi hratio hspec
      have hrow := rowMetricSeries_spelling hQ hm hr hname hreads
      have hrows := Shared.rowMetricSeries h r (canonicalMetric m)
      rw [hrow]
      cases hentry : catalogMetric? (canonicalMetric m) with
      | none => exact .pure hrows
      | some entry =>
        refine .ite Iff.rfl (fun _ => .throw _) fun hwindow => ?_
        have hbuilders : S.metricBuilders m = entry.builders := by
          simp only [metricBuilders, hratio, hspec, hentry, hwindow, if_false]
        have hcalls' : metricCalls m = entry.calls := by simp only [metricCalls, hratio, hspec, hentry]
        refine Related.bind (Related.catalogSeries h entry (fun name hin => hcalls name (hcalls' ▸ hin))
          fun b hb => ?_) fun _ _ hx => .pure (hrows.zipWith hx _)
        have hnone := (builders_entry hb).resolve_right (hplain hreads b entry hentry)
        have hyields : Yields (Holds S (S.Good Q)) (S.build b) (.ok (S.keptSeries b)) := by
          refine Yields.build hnone fun e he => hpinned e (mem_leaves (hbuilders ▸ hb) he ?_)
          intro hkey
          rw [← hkey, catalogMetric?_key, touched_entry hnone he] at hentry
          cases hentry
        exact Yields.shared_of_ok hyields hyields (keptSeries_shared S b)

/-- How a query leaves the caches before it writes its own entry. -/
structure Leaves (S : PreparedFeatureStore F) (Q : String → Prop) (k : String)
    (p : Except PyError (List F) × FeatureCaches F) : Prop where
  returns : Holds S (fun k' x => k' = k ∨ S.Good Q k' x) p.2
  raises : (∀ x, p.1 ≠ .ok x) → Holds S (S.Good Q) p.2

theorem Leaves.of_holds {p : Except PyError (List F) × FeatureCaches F}
    (h : Holds S (S.Good Q) p.2) (k : String) : Leaves S Q k p :=
  ⟨h.mono fun _ _ hx => .inr hx, fun _ => h⟩

omit [NumPy F] in
theorem eq_of_shared {v v' : Except PyError (List F)} (h : ExceptRel (Shared S S S.size) v v') :
    v = v' := by
  cases h with
  | ok hxy => exact congrArg Except.ok hxy.eq
  | error e => rfl

theorem computeMetric_eq_catalog (ms : String → Build F (List F)) (hreads : ReadsRows m)
    (hname : canonicalMetric m = canonicalMetric r)
    (hentry : catalogMetric? (canonicalMetric m) = some entry) :
    S.computeMetric ms r (canonicalMetric m) =
      if entry.window = some 0 ∧ S.bars ≠ [] then throw (.valueError "shape mismatch")
      else do
        return mergedSeries (S.rowMetricSeries r (canonicalMetric m)) (← S.catalogSeries ms entry) := by
  have hrsi : canonicalMetric m ≠ "rsi" := fun h => hreads.1 (by simp [h])
  have hratio : derivedRatio r = none := by
    rw [derivedRatio_eq_lookup, ← hname, ← derivedRatio_eq_lookup, hreads.2.1]
  rw [computeMetric, if_neg hrsi, hratio, hreads.2.2, hentry]

/-- A builder that keeps its series beside others writes them as every query of them finds them. -/
theorem exec_catalogSeries_own (ms : String → Build F (List F)) (hQ : Agree S Q) (hm : Q m) (hreads : ReadsRows m) {e : Kept}
    (hentry : catalogMetric? (canonicalMetric m) = some entry) (he : e.entry = some entry)
    (hwindow : ¬ (entry.window = some 0 ∧ S.bars ≠ [])) (hs : Holds S (S.Good Q) s)
    (hsk : s.metric.get? (canonicalMetric m) = none) :
    ∃ s', (S.catalogSeries ms entry).exec s = (.ok (S.keptSeries e), s') ∧
      Holds S (fun k' x => k' = canonicalMetric m ∨ S.Good Q k' x) s' := by
  have hbuilder : e ∈ S.metricBuilders m := by
    simp only [metricBuilders, hreads.2.1, hreads.2.2, hentry, hwindow, if_false]
    rcases e with _ | _ | p | ⟨_ | _ | _, part⟩ | ⟨kind, p⟩ <;> cases he <;> exact .head _
  have hpinned : ∀ e' ∈ e.touched, e'.key ≠ canonicalMetric m → Pinned S (S.Good Q) e' :=
    fun e' he' hkey => Good.pinned hQ hm (mem_leaves hbuilder he' hkey)
  have hself : e ∈ e.touched := by
    rcases e with _ | _ | p | ⟨family, _ | _ | _⟩ | ⟨_ | _ | _, p⟩ <;> simp [Kept.touched]
  refine exec_catalogSeries_key ms he hs (fun e' he' hnone => hpinned e' he' ?_) (fun x hx => ?_)
    (fun _ _ hx => .inr hx) fun e' he' => ?_
  · intro hkey
    rw [← hkey, catalogMetric?_key, hnone] at hentry
    cases hentry
  · by_cases hkey : e.key = canonicalMetric m
    · rw [hkey, hsk] at hx
      cases hx
    · exact (hpinned e hself hkey x).mp (hs.metric _ _ hx)
  · by_cases hkey : e'.key = canonicalMetric m
    · exact .inl hkey
    · exact .inr (hpinned e' he' hkey).self

/-- What a query computes behind the caches does not depend on what the caches hold. -/
theorem computeMetric_exec (hQ : Agree S Q) (hm : Q m) (hr : Q r)
    (hname : canonicalMetric m = canonicalMetric r)
    (hms : ∀ name ∈ metricCalls m, Yields (Holds S (S.Good Q)) (ms name) (S.fresh name))
    (hms' : ∀ name ∈ metricCalls m, Yields (Holds S (S.Good Q)) (ms' name) (S.fresh name))
    (hprice : S.priceColumn (canonicalMetric m) = none) (hs : Holds S (S.Good Q) s)
    (ht : Holds S (S.Good Q) t) (hsk : s.metric.get? (canonicalMetric m) = none)
    (htk : t.metric.get? (canonicalMetric m) = none) :
    ((S.computeMetric ms m (canonicalMetric m)).exec s).1 =
        ((S.computeMetric ms' r (canonicalMetric m)).exec t).1 ∧
      Leaves S Q (canonicalMetric m) ((S.computeMetric ms m (canonicalMetric m)).exec s) := by
  by_cases hplain : ReadsRows m → ∀ e : Kept, ∀ entry,
      catalogMetric? (canonicalMetric m) = some entry → e.entry ≠ some entry
  · have hshared := computeMetric_shared hQ hm hr hname hms hms' hprice hplain s t ⟨hs, ht⟩
    exact ⟨eq_of_shared hshared.1, Leaves.of_holds hshared.2.1 _⟩
  · push Not at hplain
    obtain ⟨hreads, e, entry, hentry, he⟩ := hplain
    have hrow := rowMetricSeries_spelling hQ hm hr hname hreads
    rw [computeMetric_eq_catalog ms hreads rfl hentry,
      computeMetric_eq_catalog ms' hreads hname hentry, ← hrow]
    by_cases hwindow : entry.window = some 0 ∧ S.bars ≠ []
    · rw [if_pos hwindow, if_pos hwindow]
      exact ⟨rfl, Leaves.of_holds hs _⟩
    · obtain ⟨s', hexec, hs'⟩ := exec_catalogSeries_own ms hQ hm hreads hentry he hwindow hs hsk
      obtain ⟨t', hexec', -⟩ := exec_catalogSeries_own ms' hQ hm hreads hentry he hwindow ht htk
      rw [if_neg hwindow, if_neg hwindow, StateE.exec_bind_ok hexec, StateE.exec_bind_ok hexec']
      exact ⟨rfl, hs', fun h => absurd rfl (h _)⟩

theorem Holds.insert_own {P : String → List F → Prop} (h : Holds S (fun k' x => k' = k ∨ P k' x) c)
    (hx : P k x) : Holds S P { c with metric := c.metric.insert k x } := by
  refine ⟨fun k' y hy => ?_, h.rolling⟩
  rw [Dict.get?_insert] at hy
  split at hy
  · rename_i hk
    cases hy
    exact hk ▸ hx
  · rename_i hk
    exact (h.metric _ _ hy).resolve_left hk

end Step

/-- Whatever was asked before, a query answers as on a fresh store, and leaves the caches so. -/
theorem yields_metricSeriesAt (hQ : Agree S Q) (hm : Q m) (hd : metricRank m < d) :
    Yields (Holds S (S.Good Q)) (S.metricSeriesAt d m) (S.fresh m) := by
  induction hrank : metricRank m using Nat.strong_induction_on generalizing m d with
  | _ rank ih =>
    subst hrank
    obtain ⟨d, rfl⟩ : ∃ d', d = d' + 1 := ⟨d - 1, by omega⟩
    -- the metrics a query asks for rank below it, at this depth and at that of any fresh query
    have hcalls : ∀ d', metricRank m ≤ d' → ∀ name ∈ metricCalls m,
        Yields (Holds S (S.Good Q)) (S.metricSeriesAt d' name) (S.fresh name) := by
      intro d' hd' name hname
      have hbelow := metricRank_calls hname
      exact ih _ hbelow (hQ.calls m hm name hname) (by omega) rfl
    intro s hs
    change ((S.metricSeriesWith (S.metricSeriesAt d) m).exec s).1 = _ ∧
      Holds S _ ((S.metricSeriesWith (S.metricSeriesAt d) m).exec s).2
    cases hsk : s.metric.get? (canonicalMetric m) with
    | some x =>
      rw [exec_metricSeriesWith_hit _ hsk]
      exact ⟨((hs.metric _ _ hsk).1 m hm rfl).symm, hs⟩
    | none =>
      cases hprice : S.priceColumn (canonicalMetric m) with
      | some x =>
        have hfresh := congrArg Prod.fst (exec_metricSeriesWith_price (s := .empty)
          (S.metricSeriesAt (m.length + 3)) Dict.get?_empty hprice)
        rw [exec_metricSeriesWith_price _ hsk hprice]
        exact ⟨hfresh.symm, hs⟩
      | none =>
        have hsame : ∀ r, Q r → canonicalMetric m = canonicalMetric r →
            ((S.computeMetric (S.metricSeriesAt d) m (canonicalMetric m)).exec s).1 = S.fresh r := by
          intro r hr hname
          have hdepth : ∀ name ∈ metricCalls m, Yields (Holds S (S.Good Q))
              (S.metricSeriesAt (r.length + 3) name) (S.fresh name) := by
            intro name hin
            have hbelow := metricRank_calls hin
            have hbelow' := metricRank_calls (metricCalls_congr hname ▸ hin)
            have hlen := metricRank_le r
            exact ih _ hbelow (hQ.calls m hm name hin) (by omega) rfl
          rw [fresh_eq (hname ▸ hprice), ← hname]
          exact (computeMetric_exec hQ hm hr hname (hcalls d (by omega)) hdepth hprice hs .empty hsk
            Dict.get?_empty).1
        have hleaves := (computeMetric_exec hQ hm hm rfl (hcalls d (by omega)) (hcalls d (by omega))
          hprice hs hs hsk hsk).2
        rw [exec_metricSeriesWith_miss _ hsk hprice, StateE.exec_bind]
        rcases hexec : (S.computeMetric (S.metricSeriesAt d) m (canonicalMetric m)).exec s with ⟨v, s'⟩
        rw [hexec] at hsame hleaves
        cases v with
        | error e => exact ⟨hsame m hm rfl, hleaves.raises nofun⟩
        | ok x =>
          refine ⟨hsame m hm rfl, Holds.insert_own hleaves.returns ⟨fun r hr hname => ?_, ?_⟩⟩
          · exact (hsame r hr hname.symm).symm
          · intro m' hm' e he hkey
            have hfresh := fresh_key hkey.symm (leaves_period he)
            rw [hQ.left m' hm' e he m hm hkey.symm, ← hsame m hm rfl] at hfresh
            exact Except.ok.inj hfresh

/-- The metrics that a sequence of queries reads, directly or for other metrics. -/
def Queried (queries : List String) (m : String) : Prop :=
  ∃ q ∈ queries, Relation.ReflTransGen (fun a b => b ∈ metricCalls a) q m

/-- The series a sequence of queries reads do not depend on their order: every two spellings of one
metric find the same values in the rows, and the rows hold no other values than the bars give for a
series that is cached beside another. -/
def QueriesAgree (S : PreparedFeatureStore F) (queries : List String) : Prop :=
  (∀ m, Queried queries m → ∀ r, Queried queries r → ReadsRows m →
      canonicalMetric m = canonicalMetric r →
      S.rowMetricSeries m (canonicalMetric m) = S.rowMetricSeries r (canonicalMetric r)) ∧
    ∀ m, Queried queries m → ∀ e ∈ S.leaves m, ∀ r, Queried queries r → canonicalMetric r = e.key →
      S.shown r (S.keptSeries e) = S.keptSeries e

theorem QueriesAgree.agree (h : S.QueriesAgree queries) : Agree S (Queried queries) where
  calls := by
    rintro m ⟨q, hq, hreach⟩ r hr
    exact ⟨q, hq, hreach.tail hr⟩
  spelling := h.1
  left := h.2

theorem holds_cachesAfter (hQ : Agree S Q) (hqueries : ∀ m ∈ queries, Q m) :
    Holds S (S.Good Q) (S.cachesAfter queries) := by
  have hrun : ∀ c, Holds S (S.Good Q) c →
      Holds S (S.Good Q) (queries.foldl (fun c m => ((S.metricSeries m).exec c).2) c) := by
    induction queries with
    | nil => exact fun _ hc => hc
    | cons m queries ih =>
      intro c hc
      have hrank := metricRank_le m
      have hdepth : metricRank m < callDepth m := by
        unfold callDepth
        omega
      have hyields := yields_metricSeriesAt hQ (hqueries m (.head _)) hdepth
      exact ih (fun r hr => hqueries r (.tail _ hr)) _ (hyields c hc).2
  exact hrun _ .empty

/-- One session of one ticker, with what the warehouse row holds beside the prices. -/
def oneBar (row : Row (Flt ℚ)) : PreparedFeatureStore (Flt ℚ) :=
  ⟨[⟨"2024-01-02", "005930", .num 100, .num 99, .num 101, .num 98, .num 1000, .nan, row⟩]⟩

theorem queried_eq {queries : List String} (h : queries.all fun q => (metricCalls q).isEmpty)
    (hm : Queried queries m) : m ∈ queries := by
  obtain ⟨q, hq, hreach⟩ := hm
  have hnone := List.isEmpty_iff.mp (List.all_eq_true.mp h q hq)
  rcases hreach.cases_head with rfl | ⟨r, hr, _⟩
  · exact hq
  · rw [hnone] at hr
    cases hr

theorem queriesAgree_of_all (S : PreparedFeatureStore (Flt ℚ)) (queries : List String)
    (hcalls : queries.all fun q => (metricCalls q).isEmpty)
    (hspelling : ∀ m ∈ queries, ∀ r ∈ queries, canonicalMetric m = canonicalMetric r →
      S.rowMetricSeries m (canonicalMetric m) = S.rowMetricSeries r (canonicalMetric r))
    (hleft : ∀ m ∈ queries, ∀ e ∈ S.leaves m, ∀ r ∈ queries, canonicalMetric r = e.key →
      S.shown r (S.keptSeries e) = S.keptSeries e) : S.QueriesAgree queries :=
  ⟨fun m hm r hr _ => hspelling m (queried_eq hcalls hm) r (queried_eq hcalls hr),
    fun m hm e he r hr => hleft m (queried_eq hcalls hm) e he r (queried_eq hcalls hr)⟩

end PreparedFeatureStore
end QuantAgent.Features
