import QuantAgent.Features.Evaluator

namespace QuantAgent.Features
set_option autoImplicit true

/-- The arrays of one condition on two stores with one past. -/
inductive SharedArrays {F : Type} (S T : PreparedFeatureStore F) (n : ℕ) :
    ConditionArrays F → ConditionArrays F → Prop where
  | unread : SharedArrays S T n .unread .unread
  | flag (hl : Shared S T n left left') (hr : Shared S T n right right') :
    SharedArrays S T n (.flag asserted comparison left right)
      (.flag asserted comparison left' right')
  | window (hc : Shared S T n close close') (he : Shared S T n extreme extreme') :
    SharedArrays S T n (.window asserted rule close extreme) (.window asserted rule close' extreme')
  | series (hl : Shared S T n left left') (hr : Shared S T n right right') :
    SharedArrays S T n (.sides left (.series right)) (.sides left' (.series right'))
  | number (hl : Shared S T n left left') (x : F) :
    SharedArrays S T n (.sides left (.number x)) (.sides left' (.number x))
  | absent (hl : Shared S T n left left') :
    SharedArrays S T n (.sides left .absent) (.sides left' .absent)

section
variable {F : Type} {S T : PreparedFeatureStore F}

/-- What is computed of each row is alike where the computation is. -/
theorem Shared.ofRows (h : SamePast S T n) {f g : ℕ → α} (hfg : ∀ i < n, f i = g i) :
    Shared S T n ((List.range S.size).map f) ((List.range T.size).map g) where
  length := by rw [List.length_map, List.length_range]
  length' := by rw [List.length_map, List.length_range]
  take := by
    have hlen := congrArg List.length h.bars
    rw [List.length_take, List.length_take] at hlen
    rw [← List.map_take, ← List.map_take, List.take_range, List.take_range]
    unfold PreparedFeatureStore.size
    rw [hlen]
    apply List.map_congr_left
    intro i hi
    rw [List.mem_range] at hi
    exact hfg i (hi.trans_le (min_le_left _ _))

theorem Shared.scatter (h : SamePast S T n) (fill : β) {g : List α → List β} (hg : Causal g)
    {x y : List α} (hxy : Shared S T n x y) :
    Shared S T n (QuantAgent.scatter fill S.tickers g x) (QuantAgent.scatter fill T.tickers g y) where
  length := by simp [PreparedFeatureStore.tickers, PreparedFeatureStore.size]
  length' := by simp [PreparedFeatureStore.tickers, PreparedFeatureStore.size]
  take := by
    have hkeys : S.tickers.take n = T.tickers.take n := (Shared.column h Bar.ticker).take
    have hx : x.length = S.tickers.length := hxy.length.trans (List.length_map _).symm
    have hy : y.length = T.tickers.length := hxy.length'.trans (List.length_map _).symm
    rw [scatter_take _ hg hx, scatter_take _ hg hy, hkeys, hxy.take]

theorem Shared.previousIndex (h : SamePast S T n) :
    Shared S T n S.previousIndex T.previousIndex := by
  have hrange : Shared S T n (List.range S.size) (List.range T.size) := by
    have hrows := Shared.ofRows h (f := id) (g := id) fun _ _ => rfl
    rwa [List.map_id, List.map_id] at hrows
  exact hrange.scatter h none ((Causal.delayed none 1).comp (.map some))

/-- What the groups are given is all they have to write. -/
theorem mem_scatter [DecidableEq κ] {fill b : β} {keys : List κ} {g : List α → List β} {xs : List α}
    (h : b ∈ QuantAgent.scatter fill keys g xs) : b = fill ∨ ∃ k, b ∈ g (gather keys k xs) := by
  unfold QuantAgent.scatter at h
  obtain ⟨e, -, rfl⟩ := List.mem_map.mp h
  cases hvalue : (g (gather keys e.1 xs))[(keys.take e.2).count e.1]? with
  | none => exact .inl rfl
  | some value => exact .inr ⟨e.1, List.mem_of_getElem? hvalue⟩

theorem mem_of_mem_gather [DecidableEq κ] {keys : List κ} {xs : List α} (h : a ∈ gather keys k xs) :
    a ∈ xs := by
  unfold gather at h
  obtain ⟨e, he, rfl⟩ := List.mem_map.mp h
  exact (List.of_mem_zip (List.mem_of_mem_filter he)).2

theorem previousIndex_lt_size (h : some p ∈ S.previousIndex) : p < S.size := by
  rcases mem_scatter h with hnone | ⟨ticker, hmem⟩
  · cases hnone
  · unfold delayed at hmem
    rcases List.mem_append.mp (List.mem_of_mem_take hmem) with hfill | hvalue
    · cases List.eq_of_mem_replicate hfill
    · obtain ⟨i, hi, hp⟩ := List.mem_map.mp hvalue
      cases hp
      exact List.mem_range.mp (mem_of_mem_gather hi)

/-- The first `n` rows of a store, where no session reaches over the cut. -/
theorem SamePast.take (hcut : RunCut S.dates n) : SamePast S (S.take n) n where
  bars := by rw [PreparedFeatureStore.take, List.take_take, min_self]
  cut := hcut
  cut' := .of_length_le (by
    rw [PreparedFeatureStore.dates, List.length_map, PreparedFeatureStore.take, List.length_take]
    exact min_le_left _ _)

/-- The bar before one of the first `n` is one of them. -/
theorem previousIndex_lt (hcut : RunCut S.dates n) (hi : i < n)
    (hp : S.previousIndex[i]? = some (some p)) : p < n := by
  have hpast := SamePast.take hcut
  rw [(Shared.previousIndex hpast).getElem? hi] at hp
  have hlt := previousIndex_lt_size (List.mem_of_getElem? hp)
  unfold PreparedFeatureStore.size PreparedFeatureStore.take at hlt
  rw [List.length_take] at hlt
  exact hlt.trans_le (min_le_left _ _)

variable [NumPy F]

theorem Shared.finiteAt {x y : List F} (h : Shared S T n x y) (hi : i < n) :
    finiteAt x i = finiteAt y i := by
  unfold Features.finiteAt
  rw [h.getElem? hi]

/-- Both operands of a comparison are alike at every shared row. -/
theorem SharedArrays.values {left left' : List F} {right right' : Side F}
    (h : SharedArrays S T n (.sides left right) (.sides left' right')) (condition : Condition F)
    (hi : i < n) :
    comparisonValues condition left right i = comparisonValues condition left' right' i := by
  cases h with
  | series hl hr => simp only [comparisonValues, Side.at, hl.finiteAt hi, hr.finiteAt hi]
  | number hl x => simp only [comparisonValues, hl.finiteAt hi]
  | absent hl => simp only [comparisonValues, hl.finiteAt hi]

/-- A comparison of shared sides has one outcome. -/
theorem SharedArrays.sides {left left' : List F} {right right' : Side F}
    (h : SharedArrays S T n (.sides left right) (.sides left' right')) (condition : Condition F)
    (hi : i < n) (hprevious : ∀ p ∈ previous, p < n) :
    (ConditionArrays.sides left right).test condition previous i =
      (ConditionArrays.sides left' right').test condition previous i := by
  have hbefore : previous.map (comparisonValues condition left right) =
      previous.map (comparisonValues condition left' right') :=
    Option.map_congr fun p hp => h.values condition (hprevious p hp)
  simp only [ConditionArrays.test, h.values condition hi, hbefore]

/-- A condition is true of the same shared rows. -/
theorem SharedArrays.test {a b : ConditionArrays F} (h : SharedArrays S T n a b)
    (condition : Condition F) (hi : i < n) (hprevious : ∀ p ∈ previous, p < n) :
    a.test condition previous i = b.test condition previous i := by
  cases h with
  | unread => rfl
  | flag hl hr => simp only [ConditionArrays.test, hl.finiteAt hi, hr.finiteAt hi]
  | window hc he => simp only [ConditionArrays.test, hc.finiteAt hi, he.finiteAt hi]
  | series hl hr => exact (SharedArrays.series hl hr).sides condition hi hprevious
  | number hl x => exact (SharedArrays.number hl x).sides condition hi hprevious
  | absent hl => exact (SharedArrays.absent hl).sides condition hi hprevious

theorem SharedArrays.testAt {a b : ConditionArrays F} (hpast : SamePast S T n)
    (h : SharedArrays S T n a b) (condition : Condition F) (hi : i < n) :
    a.test condition ((S.previousIndex[i]?).getD none) i =
      b.test condition ((T.previousIndex[i]?).getD none) i := by
  rw [← (Shared.previousIndex hpast).getElem? hi]
  apply h.test condition hi
  intro p hp
  cases hvalue : S.previousIndex[i]? with
  | none =>
    rw [hvalue] at hp
    cases hp
  | some previous =>
    rw [hvalue] at hp
    cases hp
    exact previousIndex_lt hpast.cut hi hvalue

theorem Shared.streakMatches {a b : ConditionArrays F} (hpast : SamePast S T n)
    (h : SharedArrays S T n a b) (condition : Condition F) (count : ℕ) :
    Shared S T n (S.streakMatches condition count a) (T.streakMatches condition count b) :=
  (Shared.ofRows hpast fun _ hi => h.testAt hpast condition hi).scatter hpast false (.loopMap _ _)

variable (h : SamePast S T n) (hbars : S.bars = [] ↔ T.bars = [])
include h hbars

theorem Related.currentMetric (metric : String) (hi : i < n) :
    Related (SharedCaches S T n) (· = ·) (S.currentMetric metric i) (T.currentMetric metric i) :=
  (Related.metricSeries h hbars metric).bind fun _ _ hx => .pure (hx.finiteAt hi)

theorem Related.conditionSeries (metric : String) (window : Option ℕ) (aggregate : Option Aggregate) :
    Related (SharedCaches S T n) (Shared S T n) (S.conditionSeries metric window aggregate)
      (T.conditionSeries metric window aggregate) := by
  unfold PreparedFeatureStore.conditionSeries
  cases window with
  | none => exact Related.metricSeries h hbars metric
  | some window =>
    cases aggregate with
    | none => exact Related.metricSeries h hbars metric
    | some aggregate => exact Related.rollingMetric h hbars metric window aggregate

theorem Related.comparisonSides (condition : Condition F) :
    Related (SharedCaches S T n) (fun x y => SharedArrays S T n (.sides x.1 x.2) (.sides y.1 y.2))
      (S.comparisonSides condition) (T.comparisonSides condition) := by
  unfold PreparedFeatureStore.comparisonSides
  cases condition.right with
  | metric right =>
    refine (Related.metricSeries h hbars _).bind fun _ _ hl => ?_
    exact (Related.conditionSeries h hbars _ _ _).bind fun _ _ hr => .pure (.series hl hr)
  | number x => exact (Related.conditionSeries h hbars _ _ _).bind fun _ _ hl => .pure (.number hl _)
  | band values => exact (Related.conditionSeries h hbars _ _ _).bind fun _ _ hl => .pure (.absent hl)

theorem Related.conditionArrays (condition : Condition F) :
    Related (SharedCaches S T n) (SharedArrays S T n) (S.conditionArrays condition)
      (T.conditionArrays condition) := by
  unfold PreparedFeatureStore.conditionArrays
  cases booleanComparison condition.left with
  | some flag =>
    cases booleanIsAsserted condition with
    | none => exact .pure .unread
    | some asserted =>
      refine (Related.metricSeries h hbars _).bind fun _ _ hl => ?_
      exact (Related.metricSeries h hbars _).bind fun _ _ hr => .pure (.flag hl hr)
  | none =>
    cases booleanWindowRule (F := F) condition.left with
    | some rule =>
      cases booleanIsAsserted condition with
      | none => exact .pure .unread
      | some asserted =>
        refine (Related.metricSeries h hbars _).bind fun _ _ hc => ?_
        exact (Related.conditionSeries h hbars _ _ _).bind fun _ _ he => .pure (.window hc he)
    | none => exact (Related.comparisonSides h hbars condition).bind fun _ _ hs => .pure hs

/-- The evaluator decides the same at every shared row. -/
theorem Related.conditionMatches (condition : DescribedCondition F) (hi : i < n) :
    Related (SharedCaches S T n) (· = ·) (S.conditionMatches condition i)
      (T.conditionMatches condition i) := by
  unfold PreparedFeatureStore.conditionMatches
  cases condition.consecutive with
  | none =>
    exact (Related.conditionArrays h hbars _).bind fun _ _ ha => .pure (ha.testAt h _ hi)
  | some count =>
    refine .get_bind fun c c' hc => ?_
    have hkey := hc.condition condition.dumpJson
    cases hx : c.condition.get? condition.dumpJson <;>
      cases hy : c'.condition.get? condition.dumpJson <;> rw [hx, hy] at hkey <;> cases hkey
    · refine (Related.conditionArrays h hbars _).bind fun _ _ ha => ?_
      have hstreak := Shared.streakMatches h ha condition.toCondition count
      refine Related.bind (.modify fun c c' hc => ?_) fun _ _ _ => .pure (by rw [hstreak.getElem? hi])
      exact ⟨hc.metric, hc.rolling, relate_insert hc.condition _ hstreak⟩
    · rename_i hxy
      exact .pure (by rw [hxy.getElem? hi])

theorem Related.conditionMargin (condition : Condition F) (hi : i < n) :
    Related (SharedCaches S T n) (· = ·) (S.conditionMargin condition i)
      (T.conditionMargin condition i) := by
  have hmeasure : ∀ sign, Related (SharedCaches S T n) (· = ·)
      (PreparedFeatureStore.conditionMargin.measure S condition i sign)
      (PreparedFeatureStore.conditionMargin.measure T condition i sign) :=
    fun sign => (Related.comparisonSides h hbars condition).bind fun _ _ hs =>
      .pure (by rw [hs.values condition hi])
  unfold PreparedFeatureStore.conditionMargin
  cases marginSign (F := F) condition.operator with
  | none => exact .pure rfl
  | some sign =>
    refine .ite Iff.rfl (fun _ => .pure rfl) fun _ => ?_
    cases condition.right with
    | metric right => exact hmeasure sign
    | number x => exact .ite Iff.rfl (fun _ => .pure rfl) fun _ => hmeasure sign
    | band values => exact .ite Iff.rfl (fun _ => .pure rfl) fun _ => hmeasure sign

theorem Related.defaultEntryScore (fallbackRank : Option (String × F))
    (entryConditions : List (DescribedCondition F)) (hi : i < n) :
    Related (SharedCaches S T n) (· = ·) (S.defaultEntryScore i fallbackRank entryConditions)
      (T.defaultEntryScore i fallbackRank entryConditions) := by
  have hmargins : Related (SharedCaches S T n) (· = ·)
      (entryConditions.mapM fun condition => S.conditionMargin condition.toCondition i)
      (entryConditions.mapM fun condition => T.conditionMargin condition.toCondition i) := by
    have hrel := Related.mapM (R := (· = ·)) (V := (· = ·))
      (fun (c c' : DescribedCondition F) (hc : c = c') => by
        subst hc
        exact Related.conditionMargin h hbars c.toCondition hi)
      (List.forall₂_same.mpr fun c (_ : c ∈ entryConditions) => rfl)
    exact hrel.mono fun _ _ hall => List.forall₂_eq_eq_eq ▸ hall
  have hfallback : Related (SharedCaches S T n) (· = ·) (S.fallbackScore i fallbackRank)
      (T.fallbackScore i fallbackRank) := by
    cases fallbackRank with
    | none => exact .pure rfl
    | some rank => exact (Related.currentMetric h hbars _ hi).bind fun _ _ hv => .pure (by rw [hv])
  unfold PreparedFeatureStore.defaultEntryScore
  refine hfallback.bind fun ranked _ he => ?_
  subst he
  cases ranked with
  | some score => exact .pure rfl
  | none => exact hmargins.bind fun _ _ hm => .pure (by rw [hm])

end
end QuantAgent.Features
