import QuantAgent.Features.CompiledBook
import QuantAgent.Features.ProfileActions
import QuantAgent.Features.RotationActions

namespace QuantAgent.Features
set_option autoImplicit true

section Runs
variable {F : Type} {S T : PreparedFeatureStore F}

/-- Generators that do alike on the sessions of a common front decide alike there. -/
theorem runSessions_front {stepS stepT : SessionStep F} {resetS resetT stopS stopT : Option ℕ}
    {front backS backT : List (List ℕ)} {decidedS decidedT : List (List (Decision F))}
    (hreset : ∀ k, start ≤ k → k < start + front.length → (resetS = some k ↔ resetT = some k))
    (hstop : ∀ k, start ≤ k → k < start + front.length →
      ((∃ last ∈ stopS, last < k) ↔ ∃ last ∈ stopT, last < k))
    (hstep : ∀ k indices states, start ≤ k → k < start + front.length → indices ∈ front →
      Related (SharedCaches S T n) (· = ·) (stepS k indices states) (stepT k indices states))
    {states : States F} {c c' d d' : FeatureCaches F} (hc : SharedCaches S T n c c')
    (hS : (runSessions stepS resetS stopS start (front ++ backS) states).exec c = (.ok decidedS, d))
    (hT : (runSessions stepT resetT stopT start (front ++ backT) states).exec c' = (.ok decidedT, d')) :
    decidedS.take front.length = decidedT.take front.length := by
  induction front generalizing start states c c' d d' decidedS decidedT with
  | nil => rfl
  | cons indices front ih =>
    rw [List.length_cons] at hreset hstop hstep
    rw [List.cons_append, runSessions] at hS hT
    have hstopped := hstop start le_rfl (by omega)
    split at hS
    · rename_i hlast
      rw [if_pos (hstopped.mp hlast)] at hT
      rw [StateE.exec_pure, Prod.mk.injEq, Except.ok.injEq] at hS hT
      rw [← hS.1, ← hT.1]
    · rename_i hlast
      rw [if_neg (hstopped.not.mp hlast)] at hT
      have hopen : (if resetS = some start then Dict.empty else states) =
          if resetT = some start then Dict.empty else states :=
        if_congr (hreset start le_rfl (by omega)) rfl rfl
      rw [hopen] at hS
      obtain ⟨⟨decisions, states₁⟩, c₁, hdecideS, hS⟩ := exec_bind_inv hS
      obtain ⟨⟨decisions', states₁'⟩, c₁', hdecideT, hT⟩ := exec_bind_inv hT
      obtain ⟨hresult, hcaches⟩ := hstep start indices _ le_rfl (by omega) List.mem_cons_self c c' hc
      rw [hdecideS, hdecideT] at hresult hcaches
      cases hresult with
      | ok hsame =>
        cases hsame
        obtain ⟨restS, c₂, hrestS, hS⟩ := exec_bind_inv hS
        obtain ⟨restT, c₂', hrestT, hT⟩ := exec_bind_inv hT
        rw [StateE.exec_pure, Prod.mk.injEq, Except.ok.injEq] at hS hT
        obtain ⟨rfl, -⟩ := hS
        obtain ⟨rfl, -⟩ := hT
        have hrest := ih
          (fun k hk hlt => hreset k (by omega) (by omega)) (fun k hk hlt => hstop k (by omega) (by omega))
          (fun k indices states hk hlt hmem =>
            hstep k indices states (by omega) (by omega) (List.mem_cons_of_mem _ hmem))
          hcaches hrestS hrestT
        rw [List.length_cons, List.take_succ_cons, List.take_succ_cons, hrest]

/-- A generator whose sessions decide about their own rows only. -/
def SessionStep.OwnRows (step : SessionStep F) : Prop :=
  step.Always fun _ indices decisions => ∀ d ∈ decisions, d.index ∈ indices

theorem ownRows_pure {session : ℕ → List ℕ → States F → List (Decision F) × States F}
    (h : ∀ number indices states, ∀ d ∈ (session number indices states).1, d.index ∈ indices) :
    SessionStep.OwnRows fun number indices states => pure (session number indices states) := by
  intro number indices states c decisions states' c' hrun
  have hresult := Except.ok.inj (Prod.mk.inj hrun).1
  have hrows := h number indices states
  rwa [hresult] at hrows

theorem RankedActions.foldl_write_take (decisions : List (Decision F)) {ranked ranked' : RankedActions F}
    (hactions : ranked.actions.take n = ranked'.actions.take n)
    (hscores : ranked.scores.take n = ranked'.scores.take n) :
    (decisions.foldl write ranked).actions.take n = (decisions.foldl write ranked').actions.take n ∧
      (decisions.foldl write ranked).scores.take n = (decisions.foldl write ranked').scores.take n := by
  induction decisions generalizing ranked ranked' with
  | nil => exact ⟨hactions, hscores⟩
  | cons decision later ih =>
    apply ih
    · cases decision <;> simp only [write, List.take_set, hactions]
    · cases decision <;> simp only [write, List.take_set, hscores]

/-- Decisions about later rows leave the first rows to themselves. -/
theorem RankedActions.foldl_write_later {decisions : List (Decision F)} (h : ∀ d ∈ decisions, n ≤ d.index)
    (ranked : RankedActions F) :
    (decisions.foldl write ranked).actions.take n = ranked.actions.take n ∧
      (decisions.foldl write ranked).scores.take n = ranked.scores.take n := by
  have hother : ∀ i < n, ∀ d ∈ decisions, d.index ≠ i := fun i hi d hd heq => by
    have hd := h d hd
    omega
  constructor
  · apply List.ext_getElem?
    intro i
    by_cases hi : i < n
    · rw [List.getElem?_take_of_lt hi, List.getElem?_take_of_lt hi]
      exact (foldl_write_other (hother i hi) ranked).1
    · rw [List.getElem?_take_eq_none (not_lt.mp hi), List.getElem?_take_eq_none (not_lt.mp hi)]
  · apply List.ext_getElem?
    intro i
    by_cases hi : i < n
    · rw [List.getElem?_take_of_lt hi, List.getElem?_take_of_lt hi]
      exact (foldl_write_other (hother i hi) ranked).2
    · rw [List.getElem?_take_eq_none (not_lt.mp hi), List.getElem?_take_eq_none (not_lt.mp hi)]

end Runs

section Sessions
variable {F : Type} {S T : PreparedFeatureStore F}

/-- The sessions of the first `n` rows. -/
def frontSessions (S : PreparedFeatureStore F) (n : ℕ) : List (List ℕ) :=
  (keyRuns (S.dates.take n) ((List.range S.size).take n)).map fun run => run.map Prod.snd

theorem dateRanges_split (hcut : RunCut S.dates n) :
    ∃ back, S.dateRanges = frontSessions S n ++ back ∧ ∀ indices ∈ back, ∀ i ∈ indices, n ≤ i := by
  have hlen : (List.range S.size).length = S.dates.length := by
    rw [List.length_range, PreparedFeatureStore.dates, List.length_map, PreparedFeatureStore.size]
  refine ⟨(keyRuns (S.dates.drop n) ((List.range S.size).drop n)).map fun run => run.map Prod.snd, ?_, ?_⟩
  · rw [PreparedFeatureStore.dateRanges, keyRuns_split hlen hcut, List.map_append, frontSessions]
  · intro indices hindices i hi
    obtain ⟨run, hrun, rfl⟩ := List.mem_map.mp hindices
    obtain ⟨e, he, rfl⟩ := List.mem_map.mp hi
    have hmem : e ∈ (keyRuns (S.dates.drop n) ((List.range S.size).drop n)).flatten :=
      List.mem_flatten.mpr ⟨run, hrun, he⟩
    rw [keyRuns, List.flatten_splitBy] at hmem
    have hrange := (List.of_mem_zip hmem).2
    rw [List.mem_drop_iff_getElem] at hrange
    obtain ⟨j, hj, heq⟩ := hrange
    rw [List.getElem_range] at heq
    omega

theorem frontSessions_eq (h : SamePast S T n) : frontSessions S n = frontSessions T n := by
  have hlen := congrArg List.length h.bars
  rw [List.length_take, List.length_take] at hlen
  have hdates : S.dates.take n = T.dates.take n := (Shared.column h Bar.date).take
  unfold frontSessions PreparedFeatureStore.size
  rw [hdates, List.take_range, List.take_range, hlen]

theorem frontSessions_lt (hindices : indices ∈ frontSessions S n)
    (hi : i ∈ indices) : i < n := by
  obtain ⟨run, hrun, rfl⟩ := List.mem_map.mp hindices
  obtain ⟨e, he, rfl⟩ := List.mem_map.mp hi
  have hmem : e ∈ (keyRuns (S.dates.take n) ((List.range S.size).take n)).flatten :=
    List.mem_flatten.mpr ⟨run, hrun, he⟩
  rw [keyRuns, List.flatten_splitBy] at hmem
  have hrange := (List.of_mem_zip hmem).2
  rw [List.take_range, List.mem_range] at hrange
  exact hrange.trans_le (min_le_left _ _)

variable [NumPy F]

/-- The arrays of two generators that do alike on their common sessions are alike there. -/
theorem generate_front {stepS stepT : SessionStep F} {resetS resetT stopS stopT : Option ℕ}
    (h : SamePast S T n)
    (hreset : ∀ k < (frontSessions S n).length, resetS = some k ↔ resetT = some k)
    (hstop : ∀ k < (frontSessions S n).length, (∃ last ∈ stopS, last < k) ↔ ∃ last ∈ stopT, last < k)
    (hstep : ∀ k indices states, k < (frontSessions S n).length → (∀ i ∈ indices, i < n) →
      Related (SharedCaches S T n) (· = ·) (stepS k indices states) (stepT k indices states))
    (hrowsS : stepS.OwnRows) (hrowsT : stepT.OwnRows)
    {ranked ranked' : RankedActions F} {c c' d d' : FeatureCaches F} (hc : SharedCaches S T n c c')
    (hS : (S.generate stepS resetS stopS).exec c = (.ok ranked, d))
    (hT : (T.generate stepT resetT stopT).exec c' = (.ok ranked', d')) :
    ranked.actions.take n = ranked'.actions.take n ∧ ranked.scores.take n = ranked'.scores.take n := by
  obtain ⟨backS, hsplitS, hlaterS⟩ := dateRanges_split h.cut
  obtain ⟨backT, hsplitT, hlaterT⟩ := dateRanges_split h.cut'
  rw [← frontSessions_eq h] at hsplitT
  unfold PreparedFeatureStore.generate at hS hT
  obtain ⟨decidedS, c₁, hrunS, hS⟩ := exec_bind_inv hS
  obtain ⟨decidedT, c₁', hrunT, hT⟩ := exec_bind_inv hT
  rw [StateE.exec_pure, Prod.mk.injEq, Except.ok.injEq] at hS hT
  obtain ⟨rfl, -⟩ := hS
  obtain ⟨rfl, -⟩ := hT
  rw [hsplitS] at hrunS
  rw [hsplitT] at hrunT
  generalize hfront : frontSessions S n = front at *
  have hsame := runSessions_front (fun k _ hk => hreset k (by omega)) (fun k _ hk => hstop k (by omega))
    (fun k indices states _ hk hmem => hstep k indices states (by omega)
      fun i hi => frontSessions_lt (hfront ▸ hmem) hi) hc hrunS hrunT
  -- what the sessions behind the cut decide is about rows behind it
  have hlater : ∀ {decided : List (List (Decision F))} {back : List (List ℕ)},
      (∀ (k : ℕ) (decisions : List (Decision F)), decided[k]? = some decisions →
        ∃ indices : List ℕ, (front ++ back)[k]? = some indices ∧ ∀ d ∈ decisions, d.index ∈ indices) →
      (∀ indices ∈ back, ∀ i ∈ indices, n ≤ i) → ∀ d ∈ (decided.drop front.length).flatten, n ≤ d.index := by
    intro decided back hrows hback d hd
    obtain ⟨decisions, hmem, hd⟩ := List.mem_flatten.mp hd
    obtain ⟨k, hk⟩ := List.getElem?_of_mem hmem
    rw [List.getElem?_drop] at hk
    obtain ⟨indices, hindices, hinside⟩ := hrows _ decisions hk
    rw [List.getElem?_append_right (by omega)] at hindices
    exact hback indices (List.mem_of_getElem? hindices) _ (hinside d hd)
  have hpartS := hlater (fun _ _ => SessionStep.Always.run hrowsS hrunS) hlaterS
  have hpartT := hlater (fun _ _ => SessionStep.Always.run hrowsT hrunT) hlaterT
  have hfold : ∀ (decided : List (List (Decision F))) (size : ℕ),
      (∀ d ∈ (decided.drop front.length).flatten, n ≤ d.index) →
      (decided.flatten.foldl RankedActions.write (.blank size)).actions.take n =
          ((decided.take front.length).flatten.foldl RankedActions.write (.blank size)).actions.take n ∧
        (decided.flatten.foldl RankedActions.write (.blank size)).scores.take n =
          ((decided.take front.length).flatten.foldl RankedActions.write (.blank size)).scores.take n := by
    intro decided size hback
    have hflatten : decided.flatten = (decided.take front.length).flatten ++
        (decided.drop front.length).flatten := by
      rw [← List.flatten_append, List.take_append_drop]
    rw [hflatten, List.foldl_append]
    exact RankedActions.foldl_write_later hback _
  have hblank : ∀ size, (RankedActions.blank (F := F) size).actions.take n = List.replicate (min n size) 0 ∧
      (RankedActions.blank (F := F) size).scores.take n = List.replicate (min n size) NumPy.nan :=
    fun size => ⟨List.take_replicate, List.take_replicate⟩
  have hsize : min n S.size = min n T.size := by
    have hlen := congrArg List.length h.bars
    rwa [List.length_take, List.length_take] at hlen
  obtain ⟨hactionsS, hscoresS⟩ := hfold decidedS S.size hpartS
  obtain ⟨hactionsT, hscoresT⟩ := hfold decidedT T.size hpartT
  rw [hactionsS, hactionsT, hscoresS, hscoresT, hsame]
  apply RankedActions.foldl_write_take
  · rw [(hblank _).1, (hblank _).1, hsize]
  · rw [(hblank _).2, (hblank _).2, hsize]

end Sessions

section Steps
variable {F : Type} [NumPy F] {S T : PreparedFeatureStore F}

omit [NumPy F] in
theorem tickerAt_eq {S T : PreparedFeatureStore F} (h : SamePast S T n) (hi : i < n) :
    S.tickerAt i = T.tickerAt i := by
  unfold PreparedFeatureStore.tickerAt
  rw [show S.tickers[i]? = T.tickers[i]? from (Shared.column h Bar.ticker).getElem? hi]

theorem closeAt_eq (h : SamePast S T n) (hi : i < n) : S.closeAt i = T.closeAt i := by
  unfold PreparedFeatureStore.closeAt
  rw [(Shared.column h Bar.close).getElem? hi]

theorem rsiAt_eq (h : SamePast S T n) (hi : i < n) : S.rsiAt i = T.rsiAt i := by
  unfold PreparedFeatureStore.rsiAt
  rw [(Shared.column h Bar.rsi).getElem? hi]

omit [NumPy F] in
theorem Shared.getD {x y : List α} (hxy : Shared S T n x y) (fill : α) (hi : i < n) :
    x.getD i fill = y.getD i fill := by
  rw [List.getD_eq_getElem?_getD, List.getD_eq_getElem?_getD, hxy.getElem? hi]

omit [NumPy F] in
/-- Rows settle alike where they move alike. -/
theorem settleRows_congr {move move' : ℕ → Option (PositionState F) → Move F} {rows : List ℕ}
    (htickers : ∀ i ∈ rows, S.tickerAt i = T.tickerAt i) (hmove : ∀ i ∈ rows, move i = move' i)
    (states : States F) : S.settleRows move rows states = T.settleRows move' rows states := by
  induction rows generalizing states with
  | nil => rfl
  | cons index rows ih =>
    rw [List.forall_mem_cons] at htickers hmove
    have ih := ih htickers.2 hmove.2
    rw [PreparedFeatureStore.settleRows, PreparedFeatureStore.settleRows, htickers.1, hmove.1]
    cases move' index (states.get? (T.tickerAt index)) <;> simp only [ih]

theorem evaluateRow_eq (h : SamePast S T n) {features features' : List (FeatureRow F)}
    (hfeatures : Shared S T n features features') (parameters : CandidateParameters F) (states : States F)
    (hi : i < n) :
    S.evaluateRow parameters features states i = T.evaluateRow parameters features' states i := by
  unfold PreparedFeatureStore.evaluateRow
  rw [tickerAt_eq h hi, closeAt_eq h hi, rsiAt_eq h hi, hfeatures.getD _ hi]

theorem profileSession_eq (h : SamePast S T n) {features features' : List (FeatureRow F)}
    (hfeatures : Shared S T n features features') (parameters : CandidateParameters F) {indices : List ℕ}
    (hindices : ∀ i ∈ indices, i < n) (states : States F) :
    S.profileSession parameters features indices states =
      T.profileSession parameters features' indices states := by
  have hevaluate : ∀ i ∈ indices, S.evaluateRow parameters features states i =
      T.evaluateRow parameters features' states i :=
    fun i hi => evaluateRow_eq h hfeatures parameters states (hindices i hi)
  unfold PreparedFeatureStore.profileSession
  rw [List.map_congr_left hevaluate]
  apply settleRows_congr fun i hi => tickerAt_eq h (hindices i hi)
  intro i hi
  funext state
  unfold PreparedFeatureStore.profileMove
  rw [hevaluate i hi]

theorem rotationSession_eq (h : SamePast S T n) {features features' : List (FeatureRow F)}
    (hfeatures : Shared S T n features features') (parameters : CandidateParameters F)
    (hday : PreparedFeatureStore.rotationDay parameters reset number =
      PreparedFeatureStore.rotationDay parameters reset' number) {indices : List ℕ}
    (hindices : ∀ i ∈ indices, i < n) (states : States F) :
    S.rotationSession parameters features reset number indices states =
      T.rotationSession parameters features' reset' number indices states := by
  have hobserve : ∀ i ∈ indices, S.observation parameters features i = T.observation parameters features' i := by
    intro i hi
    unfold PreparedFeatureStore.observation
    rw [tickerAt_eq h (hindices i hi), closeAt_eq h (hindices i hi), hfeatures.getD _ (hindices i hi)]
  unfold PreparedFeatureStore.rotationSession PreparedFeatureStore.sessionTarget
  rw [hday, List.filterMap_congr hobserve]
  apply settleRows_congr fun i hi => tickerAt_eq h (hindices i hi)
  intro i hi
  funext state
  unfold PreparedFeatureStore.rotationMove
  rw [tickerAt_eq h (hindices i hi), closeAt_eq h (hindices i hi)]

variable (h : SamePast S T n) (hbars : S.bars = [] ↔ T.bars = [])

omit [NumPy F] in
theorem Related.allTrue {Φ : FeatureCaches F → FeatureCaches F → Prop} {test test' : α → Build F Bool}
    {l : List α} (htest : ∀ a ∈ l, Related Φ (· = ·) (test a) (test' a)) :
    Related Φ (· = ·) (allTrue test l) (allTrue test' l) := by
  induction l with
  | nil => exact .pure rfl
  | cons a l ih =>
    rw [List.forall_mem_cons] at htest
    refine htest.1.bind fun hit hit' hsame => ?_
    subst hsame
    cases hit with
    | true => exact ih htest.2
    | false => exact .pure rfl

include h hbars

theorem Related.entryScoreAt (strategyIr : StrategyIR F) (hi : i < n) :
    Related (SharedCaches S T n) (· = ·) (S.entryScoreAt strategyIr i) (T.entryScoreAt strategyIr i) := by
  have hscore : Related (SharedCaches S T n) (· = ·) (S.eligibleScore strategyIr i)
      (T.eligibleScore strategyIr i) := by
    unfold PreparedFeatureStore.eligibleScore
    cases strategyIr.rankingMetric.filter (· ≠ "") with
    | some metric => exact (Related.currentMetric h hbars metric hi).bind fun _ _ hm => .pure (by rw [hm])
    | none =>
      exact (Related.defaultEntryScore h hbars _ _ hi).bind fun _ _ hm => .pure (by rw [hm])
  refine (Related.allTrue fun condition _ => Related.conditionMatches h hbars condition hi).bind
    fun matched matched' hsame => ?_
  subst hsame
  cases matched with
  | true => exact hscore
  | false => exact .pure rfl

theorem Related.exitAt (strategyIr : StrategyIR F) (parameters : CandidateParameters F)
    (state : Option (PositionState F)) (hi : i < n) :
    Related (SharedCaches S T n) (· = ·) (S.exitAt strategyIr parameters i state)
      (T.exitAt strategyIr parameters i state) := by
  cases state with
  | none => exact .pure rfl
  | some state =>
    have hmatch : Related (SharedCaches S T n) (· = ·) (S.exitMatch strategyIr i)
        (T.exitMatch strategyIr i) :=
      .ite Iff.rfl (fun _ => .pure rfl)
        fun _ => Related.allTrue fun condition _ => Related.conditionMatches h hbars condition hi
    refine hmatch.bind fun _ _ hm => .pure ?_
    rw [hm, closeAt_eq h hi, tickerAt_eq h hi]

theorem Related.scanRow (strategyIr : StrategyIR F) (parameters : CandidateParameters F)
    (scan : SessionScan F) (hi : i < n) :
    Related (SharedCaches S T n) (· = ·) (S.scanRow strategyIr parameters scan i)
      (T.scanRow strategyIr parameters scan i) := by
  unfold PreparedFeatureStore.scanRow
  rw [closeAt_eq h hi, tickerAt_eq h hi]
  refine (Related.entryScoreAt h hbars strategyIr hi).bind fun _ _ hs => ?_
  refine (Related.exitAt h hbars strategyIr parameters _ hi).bind fun _ _ he => .pure ?_
  rw [hs, he]

theorem Related.rankCut {indices : List ℕ} (hindices : ∀ i ∈ indices, i < n) (eligible : List (Eligible F))
    (condition : DescribedCondition F) :
    Related (SharedCaches S T n) (· = ·) (S.rankCut indices eligible condition)
      (T.rankCut indices eligible condition) := by
  unfold PreparedFeatureStore.rankCut
  refine Related.bind (V := (· = ·)) ?_ fun scored scored' hsame => ?_
  · apply Related.foldlM (R := fun i j => i = j ∧ i < n)
    · intro scored scored' i j hscored hij
      obtain ⟨rfl, hi⟩ := hij
      subst hscored
      refine (Related.currentMetric h hbars _ hi).bind fun value value' hvalue => ?_
      subst hvalue
      cases value with
      | none => exact .pure rfl
      | some value => exact .pure (by rw [tickerAt_eq h hi])
    · exact List.forall₂_same.mpr fun i hi => ⟨rfl, hindices i hi⟩
    · rfl
  subst hsame
  dsimp only
  split
  · exact .throw _
  · exact .pure rfl

/-- A session of `_compiled_actions` does alike on rows that both stores have. -/
theorem Related.compiledSession (strategyIr : StrategyIR F) (parameters : CandidateParameters F)
    (hreset : reset = some number ↔ reset' = some number) {indices : List ℕ}
    (hindices : ∀ i ∈ indices, i < n) (states : States F) :
    Related (SharedCaches S T n) (· = ·) (S.compiledSession strategyIr parameters reset number indices states)
      (T.compiledSession strategyIr parameters reset' number indices states) := by
  have hday : (reset == some number) = (reset' == some number) := by
    rw [Bool.eq_iff_iff, beq_iff_eq, beq_iff_eq, hreset]
  have hsettle : ∀ (rotationDay : Bool) (eligible : List (Eligible F)) (exits : List (ℕ × String))
      (states : States F), S.settleSession parameters rotationDay indices eligible exits states =
        T.settleSession parameters rotationDay indices eligible exits states := by
    intro rotationDay eligible exits states
    have hexits : ∀ target, S.rotationExits indices states target = T.rotationExits indices states target := by
      intro target
      unfold PreparedFeatureStore.rotationExits
      have hfilter : indices.filter (fun index => decide (S.tickerAt index ∈ states ∧ S.tickerAt index ∉ target)) =
          indices.filter fun index => decide (T.tickerAt index ∈ states ∧ T.tickerAt index ∉ target) :=
        List.filter_congr fun i hi => by rw [tickerAt_eq h (hindices i hi)]
      rw [hfilter]
      apply List.map_congr_left
      intro i hi
      rw [tickerAt_eq h (hindices i (List.mem_filter.mp hi).1)]
    unfold PreparedFeatureStore.settleSession
    simp only [hexits]
  have hscan : Related (SharedCaches S T n) (· = ·)
      (indices.foldlM (S.scanRow strategyIr parameters) ⟨states, [], []⟩)
      (indices.foldlM (T.scanRow strategyIr parameters) ⟨states, [], []⟩) := by
    apply Related.foldlM (R := fun i j => i = j ∧ i < n)
    · intro scan scan' i j hscan hij
      obtain ⟨rfl, hi⟩ := hij
      subst hscan
      exact Related.scanRow h hbars strategyIr parameters scan hi
    · exact List.forall₂_same.mpr fun i hi => ⟨rfl, hindices i hi⟩
    · rfl
  unfold PreparedFeatureStore.compiledSession
  refine hscan.bind fun scan scan' hsame => ?_
  subst hsame
  have hcuts : Related (SharedCaches S T n) (· = ·)
      (strategyIr.rankConditions.foldlM (S.rankCut indices) scan.eligible)
      (strategyIr.rankConditions.foldlM (T.rankCut indices) scan.eligible) := by
    apply Related.foldlM (R := (· = ·))
    · intro eligible eligible' condition condition' heligible hcondition
      subst heligible hcondition
      exact Related.rankCut h hbars hindices eligible condition
    · exact List.forall₂_same.mpr fun _ _ => rfl
    · rfl
  refine hcuts.bind fun eligible eligible' hsame => ?_
  subst hsame
  dsimp only
  rw [hday, hsettle]
  exact .pure rfl

end Steps
end QuantAgent.Features
