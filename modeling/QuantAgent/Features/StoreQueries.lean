import QuantAgent.Features.RowCausality

namespace QuantAgent.Features
set_option autoImplicit true

/-- What is asked of a store about one of its rows. -/
inductive StoreQuery (F : Type) [PyFloat F] where
  /-- `_metric_series(metric)[index]` -/
  | metric (metric : String) (index : ℕ)
  /-- `_rolling_metric(metric, window, aggregate)[index]` -/
  | rolling (metric : String) (window : ℕ) (aggregate : Aggregate) (index : ℕ)
  /-- `_current_metric(metric, index)` -/
  | current (metric : String) (index : ℕ)
  /-- `_condition_matches(condition, index)` -/
  | condition (condition : DescribedCondition F) (index : ℕ)
  /-- `_condition_margin(condition, index)` -/
  | margin (condition : Condition F) (index : ℕ)
  /-- `_default_entry_score(index, fallback_rank, entry_conditions)` -/
  | entryScore (fallbackRank : Option (String × F)) (entryConditions : List (DescribedCondition F))
      (index : ℕ)

inductive StoreAnswer (F : Type) where
  | value (value : Option F)
  | score (score : F)
  | flag (flag : Bool)

section
variable {F : Type} [NumPy F]

def StoreQuery.index : StoreQuery F → ℕ
  | .metric _ index => index
  | .rolling _ _ _ index => index
  | .current _ index => index
  | .condition _ index => index
  | .margin _ index => index
  | .entryScore _ _ index => index

def PreparedFeatureStore.ask (S : PreparedFeatureStore F) : StoreQuery F → Build F (StoreAnswer F)
  | .metric metric index => do pure (.value (← S.metricSeries metric)[index]?)
  | .rolling metric window aggregate index => do
    pure (.value (← S.rollingMetric metric window aggregate)[index]?)
  | .current metric index => do pure (.value (← S.currentMetric metric index))
  | .condition condition index => do pure (.flag (← S.conditionMatches condition index))
  | .margin condition index => do pure (.value (← S.conditionMargin condition index))
  | .entryScore fallbackRank entryConditions index => do
    pure (.score (← S.defaultEntryScore index fallbackRank entryConditions))

variable {S T : PreparedFeatureStore F}

/-- Two stores with one past answer alike about a shared row. -/
theorem Related.ask (h : SamePast S T n) (query : StoreQuery F) (hi : query.index < n) :
    Related (SharedCaches S T n) (· = ·) (S.ask query) (T.ask query) := by
  have hbars := h.bars_eq_nil (Nat.zero_lt_of_lt hi)
  cases query with
  | metric metric index =>
    exact (Related.metricSeries h hbars metric).bind fun _ _ hx => .pure (congrArg StoreAnswer.value (hx.getElem? hi))
  | rolling metric window aggregate index =>
    exact (Related.rollingMetric h hbars metric window aggregate).bind
      fun _ _ hx => .pure (congrArg StoreAnswer.value (hx.getElem? hi))
  | current metric index =>
    exact (Related.currentMetric h hbars metric hi).bind fun _ _ hm => .pure (by rw [hm])
  | condition condition index =>
    exact (Related.conditionMatches h hbars condition hi).bind fun _ _ hm => .pure (by rw [hm])
  | margin condition index =>
    exact (Related.conditionMargin h hbars condition hi).bind fun _ _ hm => .pure (by rw [hm])
  | entryScore fallbackRank entryConditions index =>
    exact (Related.defaultEntryScore h hbars fallbackRank entryConditions hi).bind
      fun _ _ hs => .pure (by rw [hs])

theorem ExceptRel.eq {x y : Except ε α} (h : ExceptRel (· = ·) x y) : x = y := by
  cases h with
  | ok hv => rw [hv]
  | error e => rfl

/-- However a store is asked about rows up to a date, and whatever it answered before, rows after the date
change no answer and no error. -/
theorem ask_noLookAhead {rows rows' : List (Row F)} {cutoff : String}
    (hagree : (rows.filter fun row => decide (row.date ≤ cutoff)) =
      rows'.filter fun row => decide (row.date ≤ cutoff))
    (hS : PreparedFeatureStore.ofRows rows false = .ok S)
    (hT : PreparedFeatureStore.ofRows rows' false = .ok T) {queries : List (StoreQuery F)}
    (hqueries : ∀ query ∈ queries, ∃ bar, S.bars[query.index]? = some bar ∧ bar.date ≤ cutoff) :
    ((queries.mapM S.ask).exec .empty).1 = ((queries.mapM T.ask).exec .empty).1 := by
  have hpast := samePast_of_rows hagree hS hT
  generalize hn : (rows.filter fun row => decide (row.date ≤ cutoff)).length = n at hpast
  have hasked : Related (SharedCaches S T n) (List.Forall₂ (· = ·)) (queries.mapM S.ask)
      (queries.mapM T.ask) := by
    apply Related.mapM (R := fun q q' => q = q' ∧ q ∈ queries)
    · intro query query' hq
      obtain ⟨rfl, hmem⟩ := hq
      exact Related.ask hpast query (hn ▸ ofRows_lt hS (hqueries query hmem))
    · exact List.forall₂_same.mpr fun query hmem => ⟨rfl, hmem⟩
  apply ExceptRel.eq
  apply (hasked .empty .empty .empty).1.mono
  intro answers answers' hanswers
  exact List.forall₂_eq_eq_eq ▸ hanswers

theorem ask_noLookAhead_sample : ∃ S T : PreparedFeatureStore (Flt ℚ),
    PreparedFeatureStore.ofRows sampleRows false = .ok S ∧
      PreparedFeatureStore.ofRows otherSampleRows false = .ok T ∧
      ((([.metric "close" 1, .current "rsi_14" 0] : List (StoreQuery (Flt ℚ))).mapM S.ask).exec .empty).1 =
        ((([.metric "close" 1, .current "rsi_14" 0] : List (StoreQuery (Flt ℚ))).mapM T.ask).exec .empty).1 := by
  refine ⟨_, _, ofRows_sampleRows, ofRows_otherSampleRows,
    ask_noLookAhead sampleRows_agree ofRows_sampleRows ofRows_otherSampleRows ?_⟩
  have hearly : ∀ i < 2, ∃ bar, (storeOf sampleRows).bars[i]? = some bar ∧ bar.date ≤ "2024-01-02" := by
    intro i hi
    have hany : ∀ i < 2, ((storeOf sampleRows).bars[i]?).any (fun bar => decide (bar.date ≤ "2024-01-02")) =
        true := by decide +kernel
    obtain ⟨bar, hbar, hdate⟩ := (Option.any_eq_true _ _).mp (hany i hi)
    exact ⟨bar, hbar, of_decide_eq_true hdate⟩
  intro query hquery
  rcases List.mem_pair.mp hquery with rfl | rfl
  · exact hearly 1 (by decide)
  · exact hearly 0 (by decide)

end
end QuantAgent.Features
