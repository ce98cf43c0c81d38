import QuantAgent.Lib.StableSort
import QuantAgent.Features.ProfileBook
import QuantAgent.Features.RotationBook
import QuantAgent.Features.Generators

namespace QuantAgent.Features
set_option autoImplicit true
open Holdings

section Book
variable {F : Type} [NumPy F] {S : PreparedFeatureStore F} {parameters : CandidateParameters F}
  {reset stop : Option ℕ} {ranked : RankedActions F} {c d : FeatureCaches F}

/-- The arrays of a generator are the orders of a book: each session sells what the book holds and buys what
it does not, so that every name is bought first and then sold and bought in turn, up to the reset and from it
on; no name has two orders in a session; and only the rows that buy have a score. `Held` is what is asked of
the names held behind each session. -/
structure BookKept (S : PreparedFeatureStore F) (reset : Option ℕ) (ranked : RankedActions F)
    (Held : ℕ → Finset String → Prop) : Prop where
  executes : ∃ books, replay reset 0 ∅ (S.sessionOrders ranked) = some books ∧
    ∀ (k : ℕ) (held : Finset String), books[k]? = some held → Held k held
  alternates : ∀ ticker, Alternates false (trades ticker ((S.sessionOrders ranked).take (reset.getD 0))) ∧
    Alternates false (trades ticker ((S.sessionOrders ranked).drop (reset.getD 0)))
  once : ∀ indices ∈ S.dateRanges,
    ((indices.filter fun i => ranked.actions[i]? ≠ some 0).map S.tickerAt).Nodup
  unscored : ∀ i < S.size, ranked.actions[i]? ≠ some 1 → ranked.scores[i]? = some NumPy.nan

theorem BookKept.mono {Held Held' : ℕ → Finset String → Prop} {ranked : RankedActions F}
    (h : BookKept S reset ranked Held) (hmono : ∀ k held, Held k held → Held' k held) :
    BookKept S reset ranked Held' where
  executes := by
    obtain ⟨books, hbooks, hheld⟩ := h.executes
    exact ⟨books, hbooks, fun k held hk => hmono k held (hheld k held hk)⟩
  alternates := h.alternates
  once := h.once
  unscored := h.unscored

/-- A generator whose sessions each do legal trades keeps a book. -/
theorem generate_book {step : SessionStep F} {I : ℕ → States F → Prop}
    (hreset : ∀ number, I number Dict.empty)
    (hlater : ∀ number states, (∃ last ∈ stop, last < number) → I number states → I (number + 1) states)
    (hstep : ∀ {number indices states c decisions states' c'}, S.dateRanges[number]? = some indices →
      (∀ last ∈ stop, number ≤ last) → I number states →
      (step number indices states).exec c = (.ok (decisions, states'), c') →
      Decides S indices states decisions states' ∧ I (number + 1) states')
    (hrun : (S.generate step reset stop).exec c = (.ok ranked, d)) :
    BookKept S reset ranked fun k held => ∃ states, I (k + 1) states ∧ heldNames states = held := by
  unfold PreparedFeatureStore.generate at hrun
  obtain ⟨decided, c₁, hsessions, hrun⟩ := exec_bind_inv hrun
  rw [StateE.exec_pure, Prod.mk.injEq, Except.ok.injEq] at hrun
  obtain ⟨rfl, -⟩ := hrun
  obtain ⟨hrows, books, hbooks, hkept⟩ := runSessions_replay hreset hlater hstep
    (List.drop_zero (l := S.dateRanges)) (hreset 0) hsessions
  rw [heldNames_empty, ← hrows.sessionOrders] at hbooks
  refine ⟨⟨books, hbooks, fun k held hk => ?_⟩, alternates_of_replay hbooks, ?_, ?_⟩
  · have hbook := hkept k held hk
    rwa [Nat.zero_add] at hbook
  · intro indices hindices
    obtain ⟨k, hk⟩ := List.getElem?_of_mem hindices
    have hnodup : indices.Nodup := by
      have hflat : S.dateRanges.flatten.Nodup := by
        rw [flatten_dateRanges]
        exact List.nodup_range
      exact (List.nodup_flatten.mp hflat).1 indices hindices
    have hdecided : ∀ i ∈ indices.filter fun i =>
        (decided.flatten.foldl RankedActions.write (.blank S.size)).actions[i]? ≠ some 0,
        ∃ d ∈ decided.getD k [], d.index = i := by
      intro i hi
      obtain ⟨hi, hacts⟩ := List.mem_filter.mp hi
      have hacts := of_decide_eq_true hacts
      by_contra hnone
      have hother : ∀ d ∈ decided.flatten, d.index ≠ i := by
        intro d hd heq
        exact hnone ⟨d, hrows.mem_session hd hk (heq.symm ▸ hi), heq⟩
      rw [(RankedActions.foldl_write_other hother _).1] at hacts
      apply hacts
      have hlt := mem_dateRanges_lt hk hi
      simp [RankedActions.blank, hlt]
    refine (hnodup.filter _).map_on ?_
    intro i hi j hj hsame
    obtain ⟨d, hd, rfl⟩ := hdecided i hi
    obtain ⟨d', hd', rfl⟩ := hdecided j hj
    have honce : ((decided.getD k []).map S.decided).Nodup := by
      rw [List.getD_eq_getElem?_getD]
      cases hdecisions : decided[k]? with
      | none => exact List.nodup_nil
      | some decisions =>
        obtain ⟨_, -, -, honce⟩ := hrows k decisions hdecisions
        exact honce
    rw [List.inj_on_of_nodup_map honce hd hd' hsame]
  · intro i hi hnot
    apply (hrows.written i).2.2.2 _ hi
    intro score hmem
    exact hnot ((hrows.written i).1.mpr ⟨score, hmem⟩)

/-- A generator that only buys in some sessions has no buys in the others. -/
theorem generate_quiet {step : SessionStep F} {P : ℕ → Prop}
    (hstep : step.Always fun number indices decisions =>
      ∀ i score, .buy i score ∈ decisions → i ∈ indices ∧ P number)
    (hrun : (S.generate step reset stop).exec c = (.ok ranked, d)) {k : ℕ} {indices : List ℕ}
    (hindices : S.dateRanges[k]? = some indices) (hi : i ∈ indices) (hk : ¬P k) :
    ranked.actions[i]? ≠ some 1 := by
  unfold PreparedFeatureStore.generate at hrun
  obtain ⟨decided, c₁, hsessions, hrun⟩ := exec_bind_inv hrun
  rw [StateE.exec_pure, Prod.mk.injEq, Except.ok.injEq] at hrun
  obtain ⟨rfl, -⟩ := hrun
  apply RankedActions.foldl_write_unbought
  · intro score hbuy
    obtain ⟨decisions, hmem, hbuy⟩ := List.mem_flatten.mp hbuy
    obtain ⟨j, hj⟩ := List.getElem?_of_mem hmem
    obtain ⟨indices', hindices', hbuys⟩ := hstep.run hsessions hj
    obtain ⟨hi', hP⟩ := hbuys i score hbuy
    rw [Nat.zero_add] at hP
    cases dateRanges_disjoint hindices' hindices hi' hi
    exact hk hP
  · have hlt := mem_dateRanges_lt hindices hi
    simp [RankedActions.blank, hlt]

/-- `_compiled_actions` keeps a book of at most `max_positions` names. -/
theorem compiledActions_book {strategyIr : StrategyIR F}
    (hrun : (S.compiledActions strategyIr parameters reset stop).exec c = (.ok ranked, d)) :
    BookKept S reset ranked fun _ held => held.card ≤ parameters.maxPositions := by
  have hbook := generate_book (I := fun _ states => states.size ≤ parameters.maxPositions)
    (fun _ => Nat.zero_le _) (fun _ _ _ => id)
    (fun _ _ hsize hsession => (compiledSession_decides hsession).imp_right fun hfits => hfits hsize) hrun
  apply hbook.mono
  rintro k held ⟨states, hsize, rfl⟩
  rwa [card_heldNames]

theorem compiledActions_book_sample : ∃ ranked, BookKept sampleStore none ranked fun _ held =>
    held.card ≤ 1 := by
  obtain ⟨ranked, d, hrun⟩ := exec_of_isOk (s := FeatureCaches.empty)
    (show ((sampleStore.compiledActions sampleIr (sampleParameters .compiledConditions) none none).exec
      .empty).1.toBool = true by decide +kernel)
  exact ⟨ranked, compiledActions_book hrun⟩

/-- No ticker has two rows of one date. -/
def DistinctKeys (S : PreparedFeatureStore F) : Prop :=
  (S.bars.map fun bar => (bar.date, bar.ticker)).Nodup

omit [NumPy F] in
/-- Then no ticker has two rows of one session. -/
theorem DistinctKeys.session (hkeys : DistinctKeys S) {indices : List ℕ} (hindices : indices ∈ S.dateRanges) :
    (indices.map S.tickerAt).Nodup := by
  have hnodup : indices.Nodup := by
    have hflat : S.dateRanges.flatten.Nodup := by
      rw [flatten_dateRanges]
      exact List.nodup_range
    exact (List.nodup_flatten.mp hflat).1 indices hindices
  obtain ⟨run, hrun, rfl⟩ := List.mem_map.mp hindices
  have hbar : ∀ e ∈ run, ∃ bar, S.bars[e.2]? = some bar ∧ bar.date = e.1 ∧ bar.ticker = S.tickerAt e.2 := by
    intro e he
    have hdate := getElem?_of_mem_keyRuns hrun he
    rw [PreparedFeatureStore.dates, List.getElem?_map] at hdate
    obtain ⟨bar, hbar, hdate⟩ := Option.map_eq_some_iff.mp hdate
    refine ⟨bar, hbar, hdate, ?_⟩
    rw [PreparedFeatureStore.tickerAt, PreparedFeatureStore.tickers, List.getElem?_map, hbar]
    rfl
  refine hnodup.map_on ?_
  intro i hi j hj hsame
  obtain ⟨e, he, rfl⟩ := List.mem_map.mp hi
  obtain ⟨e', he', rfl⟩ := List.mem_map.mp hj
  obtain ⟨bar, hplace, hdate, hticker⟩ := hbar e he
  obtain ⟨bar', hplace', hdate', hticker'⟩ := hbar e' he'
  have hkey : (bar.date, bar.ticker) = (bar'.date, bar'.ticker) := by
    rw [hdate, hdate', hticker, hticker', hsame, keyRuns_same hrun he he']
  have hlt : e.2 < (S.bars.map fun bar => (bar.date, bar.ticker)).length := by
    rw [List.length_map]
    exact (List.getElem?_eq_some_iff.mp hplace).1
  apply (List.getElem?_inj hlt hkeys).mp
  rw [List.getElem?_map, List.getElem?_map, hplace, hplace', Option.map_some, Option.map_some, hkey]

theorem sampleStore_keys : DistinctKeys sampleStore := by
  unfold DistinctKeys
  decide +kernel

/-- A name with a row in one session has one in every later session. -/
def Unbroken (S : PreparedFeatureStore F) : Prop :=
  ∀ (j k : ℕ) (indices indices' : List ℕ), j ≤ k → S.dateRanges[j]? = some indices →
    S.dateRanges[k]? = some indices' → sessionNames S indices ⊆ sessionNames S indices'

/-- The states a rotation opens the session of this number with. -/
structure Rotates (S : PreparedFeatureStore F) (parameters : CandidateParameters F) (reset stop : Option ℕ)
    (number : ℕ) (states : States F) : Prop where
  target : ∀ (k : ℕ) (indices : List ℕ), number = k + 1 → (∀ last ∈ stop, k ≤ last) →
    PreparedFeatureStore.rotationDay parameters reset k = true → S.dateRanges[k]? = some indices →
    (heldNames states ∩ sessionNames S indices).card ≤ parameters.maxPositions
  seen : ∀ ticker ∈ states, ∃ (j : ℕ) (indices : List ℕ), j < number ∧ S.dateRanges[j]? = some indices ∧
    ticker ∈ sessionNames S indices
  size : Unbroken S → states.size ≤ parameters.maxPositions

omit [NumPy F] in
theorem Rotates.empty (number : ℕ) : Rotates S parameters reset stop number Dict.empty where
  target k indices _ _ _ _ := by
    rw [heldNames_empty, Finset.empty_inter]
    exact Nat.zero_le _
  seen ticker h := absurd h List.not_mem_nil
  size _ := Nat.zero_le _

omit [NumPy F] in
theorem Rotates.stopped {states : States F} (h : Rotates S parameters reset stop number states)
    (hstop : ∃ last ∈ stop, last < number) : Rotates S parameters reset stop (number + 1) states where
  target k indices hk hgoing _ _ := by
    obtain ⟨last, hlast, hlt⟩ := hstop
    have hle := hgoing last hlast
    omega
  seen ticker hticker := by
    obtain ⟨j, indices, hj, hindices, hmem⟩ := h.seen ticker hticker
    exact ⟨j, indices, Nat.lt_succ_of_lt hj, hindices, hmem⟩
  size := h.size

theorem Rotates.session {states : States F} (h : Rotates S parameters reset stop number states)
    (hkeys : DistinctKeys S) {indices : List ℕ} (hindices : S.dateRanges[number]? = some indices)
    (hsession : S.rotationSession parameters features reset number indices states = (decisions, states')) :
    Decides S indices states decisions states' ∧ Rotates S parameters reset stop (number + 1) states' := by
  obtain ⟨hdecides, hrotation, hquiet⟩ := rotationSession_decides
    (hkeys.session (List.mem_of_getElem? hindices)) reset number states hsession
  have hseen : ∀ ticker ∈ states', ∃ (j : ℕ) (indices : List ℕ), j < number + 1 ∧
      S.dateRanges[j]? = some indices ∧ ticker ∈ sessionNames S indices := by
    intro ticker hticker
    rcases (hdecides.after ticker).mp hticker with ⟨hheld, -⟩ | ⟨i, score, hi, rfl⟩
    · obtain ⟨j, indices', hj, hindices', hmem⟩ := h.seen ticker hheld
      exact ⟨j, indices', Nat.lt_succ_of_lt hj, hindices', hmem⟩
    · refine ⟨number, indices, Nat.lt_succ_self _, hindices, ?_⟩
      exact List.mem_toFinset.mpr (List.mem_map.mpr ⟨i, hdecides.rows _ hi, rfl⟩)
  refine ⟨hdecides, ?_, hseen, ?_⟩
  · intro k indices' hk _ hday hindices'
    obtain rfl := Nat.succ.inj hk
    cases hindices.symm.trans hindices'
    exact hrotation hday
  · intro hunbroken
    rw [← card_heldNames]
    cases hday : PreparedFeatureStore.rotationDay parameters reset number with
    | true =>
      -- all that is held has a row in the session
      have hinside : heldNames states' ⊆ sessionNames S indices := by
        intro ticker hticker
        obtain ⟨j, indices', hj, hindices', hmem⟩ := hseen ticker (mem_heldNames.mp hticker)
        exact hunbroken j number indices' indices (Nat.le_of_lt_succ hj) hindices' hindices hmem
      rw [← Finset.inter_eq_left.mpr hinside]
      exact hrotation hday
    | false =>
      have hfewer : heldNames states' ⊆ heldNames states :=
        fun ticker hticker => mem_heldNames.mpr (hquiet hday ticker (mem_heldNames.mp hticker))
      have hsize := h.size hunbroken
      rw [← card_heldNames] at hsize
      exact (Finset.card_le_card hfewer).trans hsize

end Book
end QuantAgent.Features
