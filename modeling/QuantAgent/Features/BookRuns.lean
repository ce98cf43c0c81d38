import QuantAgent.Features.ActionBook

namespace QuantAgent.Features
set_option autoImplicit true
open Holdings

theorem exec_bind_inv {m : StateE ε σ α} {k : α → StateE ε σ β} {s s'' : σ} {b : β}
    (h : (m >>= k).exec s = (.ok b, s'')) :
    ∃ a s', m.exec s = (.ok a, s') ∧ (k a).exec s' = (.ok b, s'') := by
  rw [StateE.exec_bind] at h
  rcases hm : m.exec s with ⟨e | a, s'⟩
  · rw [hm] at h
    cases h
  · rw [hm] at h
    exact ⟨a, s', rfl, h⟩

theorem exec_of_isOk {m : StateE ε σ α} {s : σ} (h : (m.exec s).1.toBool = true) :
    ∃ a s', m.exec s = (.ok a, s') := by
  rcases hrun : m.exec s with ⟨e | a, s'⟩
  · rw [hrun] at h
    cases h
  · exact ⟨a, s', rfl⟩

section Arrays
variable {F : Type}

theorem RankedActions.length_write (ranked : RankedActions F) (decision : Decision F) :
    (ranked.write decision).actions.length = ranked.actions.length ∧
      (ranked.write decision).scores.length = ranked.scores.length := by
  cases decision <;> simp [RankedActions.write]

theorem RankedActions.length_foldl_write (decisions : List (Decision F)) (ranked : RankedActions F) :
    (decisions.foldl write ranked).actions.length = ranked.actions.length ∧
      (decisions.foldl write ranked).scores.length = ranked.scores.length := by
  induction decisions generalizing ranked with
  | nil => exact ⟨rfl, rfl⟩
  | cons decision later ih =>
    obtain ⟨hactions, hscores⟩ := ih (ranked.write decision)
    obtain ⟨hactions', hscores'⟩ := ranked.length_write decision
    exact ⟨hactions.trans hactions', hscores.trans hscores'⟩

/-- A row that no decision is about keeps what it had. -/
theorem RankedActions.foldl_write_other {decisions : List (Decision F)} {i : ℕ}
    (h : ∀ d ∈ decisions, d.index ≠ i) (ranked : RankedActions F) :
    (decisions.foldl write ranked).actions[i]? = ranked.actions[i]? ∧
      (decisions.foldl write ranked).scores[i]? = ranked.scores[i]? := by
  induction decisions generalizing ranked with
  | nil => exact ⟨rfl, rfl⟩
  | cons decision later ih =>
    rw [List.forall_mem_cons] at h
    obtain ⟨hactions, hscores⟩ := ih h.2 (ranked.write decision)
    rw [List.foldl_cons, hactions, hscores]
    cases decision with
    | buy index score => exact ⟨List.getElem?_set_ne h.1, List.getElem?_set_ne h.1⟩
    | sell index => exact ⟨List.getElem?_set_ne h.1, rfl⟩

/-- Only a decision to buy writes a buy. -/
theorem RankedActions.foldl_write_unbought {decisions : List (Decision F)} {i : ℕ}
    (h : ∀ score, .buy i score ∉ decisions) {ranked : RankedActions F} (hi : ranked.actions[i]? ≠ some 1) :
    (decisions.foldl write ranked).actions[i]? ≠ some 1 := by
  induction decisions generalizing ranked with
  | nil => exact hi
  | cons decision later ih =>
    apply ih fun score hmem => h score (List.mem_cons_of_mem _ hmem)
    cases decision with
    | buy index score =>
      have hne : index ≠ i := fun heq => h score (heq ▸ List.mem_cons_self)
      rwa [write, List.getElem?_set_ne hne]
    | sell index =>
      rw [write, List.getElem?_set]
      split
      · split
        · decide
        · exact nofun
      · exact hi

/-- A decision looks at no other row than its own. -/
theorem RankedActions.write_congr {ranked ranked' : RankedActions F} (decision : Decision F)
    (hactions : ranked.actions[decision.index]? = ranked'.actions[decision.index]?)
    (hscores : ranked.scores[decision.index]? = ranked'.scores[decision.index]?) :
    (ranked.write decision).actions[decision.index]? = (ranked'.write decision).actions[decision.index]? ∧
      (ranked.write decision).scores[decision.index]? =
        (ranked'.write decision).scores[decision.index]? := by
  cases decision with
  | buy index score =>
    simp only [write, Decision.index, List.getElem?_set_self'] at hactions hscores ⊢
    exact ⟨by rw [hactions], by rw [hscores]⟩
  | sell index =>
    simp only [write, Decision.index, List.getElem?_set_self'] at hactions hscores ⊢
    exact ⟨by rw [hactions], hscores⟩

/-- The only decision about a row is what the arrays say there. -/
theorem RankedActions.foldl_write_mem {decisions : List (Decision F)}
    (hnodup : (decisions.map Decision.index).Nodup) (hmem : decision ∈ decisions) (ranked : RankedActions F) :
    (decisions.foldl write ranked).actions[decision.index]? =
        (ranked.write decision).actions[decision.index]? ∧
      (decisions.foldl write ranked).scores[decision.index]? =
        (ranked.write decision).scores[decision.index]? := by
  induction decisions generalizing ranked with
  | nil => cases hmem
  | cons first later ih =>
    rw [List.map_cons, List.nodup_cons] at hnodup
    rw [List.foldl_cons]
    rcases List.mem_cons.mp hmem with rfl | hlater
    · apply foldl_write_other
      intro d hd heq
      exact hnodup.1 (List.mem_map.mpr ⟨d, hd, heq⟩)
    · obtain ⟨hactions, hscores⟩ := ih hnodup.2 hlater (ranked.write first)
      have hother : ∀ d ∈ [first], d.index ≠ decision.index := by
        intro d hd heq
        rw [List.mem_singleton.mp hd] at heq
        exact hnodup.1 (List.mem_map.mpr ⟨decision, hlater, heq.symm⟩)
      obtain ⟨hsame, hsame'⟩ := foldl_write_other hother ranked
      obtain ⟨hwrite, hwrite'⟩ := write_congr decision hsame hsame'
      exact ⟨hactions.trans hwrite, hscores.trans hwrite'⟩

end Arrays

section Trades
variable {F : Type} {S : PreparedFeatureStore F}

/-- The ticker a decision is about. -/
def PreparedFeatureStore.decided (S : PreparedFeatureStore F) (decision : Decision F) : String :=
  S.tickerAt decision.index

/-- What the decisions of a session do to the tickers in position. -/
structure Decides (S : PreparedFeatureStore F) (indices : List ℕ) (states : States F)
    (decisions : List (Decision F)) (states' : States F) : Prop where
  rows : ∀ d ∈ decisions, d.index ∈ indices
  once : (decisions.map S.decided).Nodup
  sells : ∀ i, .sell i ∈ decisions → S.tickerAt i ∈ states
  buys : ∀ i score, .buy i score ∈ decisions → S.tickerAt i ∉ states
  after : ∀ ticker, ticker ∈ states' ↔
    (ticker ∈ states ∧ ∀ i, .sell i ∈ decisions → S.tickerAt i ≠ ticker) ∨
      ∃ i score, .buy i score ∈ decisions ∧ S.tickerAt i = ticker

/-- The tickers in position. -/
def heldNames (states : States F) : Finset String := states.keys.toFinset

theorem mem_heldNames {states : States F} : ticker ∈ heldNames states ↔ ticker ∈ states :=
  List.mem_toFinset

theorem card_heldNames (states : States F) : (heldNames states).card = states.size := by
  rw [heldNames, List.toFinset_card_of_nodup states.keys_nodup, Dict.keys, List.length_map]
  rfl

@[simp] theorem heldNames_empty : heldNames (Dict.empty : States F) = ∅ := rfl

def Decision.sold? : Decision F → Option ℕ
  | .buy _ _ => none
  | .sell index => some index

def Decision.bought? : Decision F → Option ℕ
  | .buy index _ => some index
  | .sell _ => none

theorem mem_sold {decisions : List (Decision F)} :
    i ∈ decisions.filterMap Decision.sold? ↔ .sell i ∈ decisions := by
  rw [List.mem_filterMap]
  constructor
  · rintro ⟨d, hd, hsold⟩
    cases d with
    | buy => cases hsold
    | sell =>
      cases hsold
      exact hd
  · exact fun h => ⟨_, h, rfl⟩

theorem mem_bought {decisions : List (Decision F)} :
    i ∈ decisions.filterMap Decision.bought? ↔ ∃ score, .buy i score ∈ decisions := by
  rw [List.mem_filterMap]
  constructor
  · rintro ⟨d, hd, hbought⟩
    cases d with
    | sell => cases hbought
    | buy i score =>
      cases hbought
      exact ⟨score, hd⟩
  · rintro ⟨score, h⟩
    exact ⟨_, h, rfl⟩

/-- The orders a session decides on. -/
def decisionOrders (S : PreparedFeatureStore F) (decisions : List (Decision F)) : Orders String where
  sells := ((decisions.filterMap Decision.sold?).map S.tickerAt).toFinset
  buys := ((decisions.filterMap Decision.bought?).map S.tickerAt).toFinset

theorem mem_decisionOrders_sells {decisions : List (Decision F)} :
    ticker ∈ (decisionOrders S decisions).sells ↔ ∃ i, .sell i ∈ decisions ∧ S.tickerAt i = ticker := by
  rw [decisionOrders, List.mem_toFinset, List.mem_map]
  exact exists_congr fun i => and_congr_left' mem_sold

theorem mem_decisionOrders_buys {decisions : List (Decision F)} :
    ticker ∈ (decisionOrders S decisions).buys ↔
      ∃ i score, .buy i score ∈ decisions ∧ S.tickerAt i = ticker := by
  rw [decisionOrders, List.mem_toFinset, List.mem_map]
  simp only [mem_bought, exists_and_right]

namespace Decides
variable {indices : List ℕ} {states states' : States F} {decisions : List (Decision F)}
  (h : Decides S indices states decisions states')
include h

theorem legal : (decisionOrders S decisions).Legal (heldNames states) where
  sells := by
    intro ticker hticker
    obtain ⟨i, hi, rfl⟩ := mem_decisionOrders_sells.mp hticker
    exact mem_heldNames.mpr (h.sells i hi)
  buys := by
    rw [Finset.disjoint_left]
    intro ticker hticker hheld
    obtain ⟨i, score, hi, rfl⟩ := mem_decisionOrders_buys.mp hticker
    exact h.buys i score hi (mem_heldNames.mp hheld)

theorem apply_eq : (decisionOrders S decisions).apply (heldNames states) = heldNames states' := by
  ext ticker
  rw [Orders.mem_apply, mem_heldNames, mem_heldNames, h.after, mem_decisionOrders_sells,
    mem_decisionOrders_buys]
  have hnone : (¬∃ i, .sell i ∈ decisions ∧ S.tickerAt i = ticker) ↔
      ∀ i, .sell i ∈ decisions → S.tickerAt i ≠ ticker := by
    rw [not_exists]
    exact forall_congr' fun i => not_and
  rw [hnone]

end Decides

theorem decisionOrders_nil : decisionOrders S ([] : List (Decision F)) = ⟨∅, ∅⟩ := rfl

/-- Sessions without orders leave the book to itself. -/
theorem replay_idle {I : ℕ → Finset String → Prop} (hreset : ∀ number, I number ∅)
    (hlater : ∀ k held, number ≤ k → I k held → I (k + 1) held) (h : I number held) (count : ℕ) :
    ∃ books, replay reset number held (List.replicate count ⟨∅, ∅⟩) = some books ∧
      ∀ k held', books[k]? = some held' → I (number + k + 1) held' := by
  induction count generalizing number held with
  | zero => exact ⟨[], rfl, nofun⟩
  | succ count ih =>
    have hopen : I number (opening reset number held) := by
      unfold opening
      split
      · exact hreset number
      · exact h
    have hlegal : (⟨∅, ∅⟩ : Orders String).Legal (opening reset number held) :=
      ⟨Finset.empty_subset _, Finset.disjoint_empty_left _⟩
    have hsame : (⟨∅, ∅⟩ : Orders String).apply (opening reset number held) = opening reset number held := by
      rw [Orders.apply, Finset.sdiff_empty, Finset.union_empty]
    obtain ⟨books, hbooks, hkept⟩ := ih (fun k held hk => hlater k held (Nat.le_of_succ_le hk))
      (hlater number _ le_rfl hopen)
    rw [List.replicate_succ, replay_cons hlegal, hsame, hbooks]
    refine ⟨_, rfl, ?_⟩
    intro k held' hk
    cases k with
    | zero =>
      rw [List.getElem?_cons_zero, Option.some.injEq] at hk
      exact hk ▸ hlater number _ le_rfl hopen
    | succ k =>
      rw [List.getElem?_cons_succ] at hk
      have hbook := hkept k held' hk
      rwa [Nat.add_right_comm number 1 k] at hbook

/-- Every session decides about its own rows. -/
def RowsOfSessions (S : PreparedFeatureStore F) (sessions : List (List ℕ))
    (decided : List (List (Decision F))) : Prop :=
  ∀ (k : ℕ) (decisions : List (Decision F)), decided[k]? = some decisions →
    ∃ indices : List ℕ, sessions[k]? = some indices ∧
      (∀ d ∈ decisions, d.index ∈ indices) ∧ (decisions.map S.decided).Nodup

/-- The orders of the sessions; one that is not reached has none. -/
def decidedOrders (S : PreparedFeatureStore F) (sessions : List (List ℕ))
    (decided : List (List (Decision F))) : List (Orders String) :=
  sessions.mapIdx fun k _ => decisionOrders S (decided.getD k [])

theorem decidedOrders_cons (S : PreparedFeatureStore F) (indices : List ℕ) (sessions : List (List ℕ))
    (decisions : List (Decision F)) (decided : List (List (Decision F))) :
    decidedOrders S (indices :: sessions) (decisions :: decided) =
      decisionOrders S decisions :: decidedOrders S sessions decided := by
  simp [decidedOrders, List.mapIdx_cons]

theorem decidedOrders_nil (S : PreparedFeatureStore F) (sessions : List (List ℕ)) :
    decidedOrders S sessions [] = List.replicate sessions.length ⟨∅, ∅⟩ := by
  rw [decidedOrders, List.eq_replicate_iff, List.length_mapIdx]
  refine ⟨rfl, ?_⟩
  intro orders horders
  obtain ⟨k, hk, rfl⟩ := List.mem_mapIdx.mp horders
  rfl

/-- A generator whose sessions each do legal trades gives orders that a book can execute. The invariant
`I` is that of the states before the session with this number. -/
theorem runSessions_replay {step : SessionStep F} {I : ℕ → States F → Prop}
    (hreset : ∀ number, I number Dict.empty)
    (hlater : ∀ number states, (∃ last ∈ stop, last < number) → I number states → I (number + 1) states)
    (hstep : ∀ {number indices states c decisions states' c'}, S.dateRanges[number]? = some indices →
      (∀ last ∈ stop, number ≤ last) → I number states →
      (step number indices states).exec c = (.ok (decisions, states'), c') →
      Decides S indices states decisions states' ∧ I (number + 1) states')
    {sessions : List (List ℕ)} (hsessions : S.dateRanges.drop number = sessions) (hI : I number states)
    {c d : FeatureCaches F}
    (hrun : (runSessions step reset stop number sessions states).exec c = (.ok decided, d)) :
    RowsOfSessions S sessions decided ∧ ∃ books,
      replay reset number (heldNames states) (decidedOrders S sessions decided) = some books ∧
        ∀ k held, books[k]? = some held → ∃ states, I (number + k + 1) states ∧ heldNames states = held := by
  have hidle : ∀ {number : ℕ} {states : States F} (sessions : List (List ℕ)),
      (sessions = [] ∨ ∃ last ∈ stop, last < number) → I number states →
      RowsOfSessions S sessions [] ∧ ∃ books,
        replay reset number (heldNames states) (decidedOrders S sessions []) = some books ∧
          ∀ k held, books[k]? = some held →
            ∃ states, I (number + k + 1) states ∧ heldNames states = held := by
    intro number states sessions hstopped hI
    constructor
    · intro k decisions hk
      rw [List.getElem?_nil] at hk
      cases hk
    rw [decidedOrders_nil]
    rcases hstopped with rfl | ⟨last, hlast, hlt⟩
    · exact ⟨[], rfl, nofun⟩
    · apply replay_idle (I := fun number held => ∃ states, I number states ∧ heldNames states = held)
      · exact fun number => ⟨Dict.empty, hreset number, rfl⟩
      · exact fun k held hk ⟨states, hI, hheld⟩ =>
          ⟨states, hlater k states ⟨last, hlast, hlt.trans_le hk⟩ hI, hheld⟩
      · exact ⟨states, hI, rfl⟩
  induction sessions generalizing number states c d decided with
  | nil =>
    rw [runSessions, StateE.exec_pure, Prod.mk.injEq, Except.ok.injEq] at hrun
    obtain ⟨rfl, -⟩ := hrun
    exact hidle [] (.inl rfl) hI
  | cons indices later ih =>
    rw [runSessions] at hrun
    split at hrun
    · rename_i hstopped
      rw [StateE.exec_pure, Prod.mk.injEq, Except.ok.injEq] at hrun
      obtain ⟨rfl, -⟩ := hrun
      exact hidle _ (.inr hstopped) hI
    · rename_i hgoing
      have hgoing : ∀ last ∈ stop, number ≤ last := by
        intro last hlast
        by_contra hlt
        exact hgoing ⟨last, hlast, not_le.mp hlt⟩
      have hopen : I number (if reset = some number then Dict.empty else states) := by
        split
        · exact hreset number
        · exact hI
      have hheld : heldNames (if reset = some number then Dict.empty else states) =
          opening reset number (heldNames states) := by
        unfold opening
        split <;> rfl
      have hhead : S.dateRanges[number]? = some indices := by
        rw [← List.head?_drop, hsessions]
        rfl
      have htail : S.dateRanges.drop (number + 1) = later := by
        rw [← List.tail_drop, hsessions]
        rfl
      obtain ⟨⟨decisions, states'⟩, c₁, hdecide, hrun⟩ := exec_bind_inv hrun
      obtain ⟨rest, c₂, hrest, hrun⟩ := exec_bind_inv hrun
      rw [StateE.exec_pure, Prod.mk.injEq, Except.ok.injEq] at hrun
      obtain ⟨rfl, -⟩ := hrun
      obtain ⟨hdecides, hI'⟩ := hstep hhead hgoing hopen hdecide
      obtain ⟨hrows, books, hbooks, hkept⟩ := ih htail hI' hrest
      have hlegal := hdecides.legal
      have happly := hdecides.apply_eq
      rw [hheld] at hlegal happly
      constructor
      · intro k decisions' hk
        cases k with
        | zero =>
          cases hk
          exact ⟨indices, rfl, hdecides.rows, hdecides.once⟩
        | succ k => exact hrows k decisions' hk
      · rw [decidedOrders_cons, replay_cons hlegal, happly, hbooks]
        refine ⟨_, rfl, ?_⟩
        intro k held hk
        cases k with
        | zero =>
          cases hk
          exact ⟨states', hI', rfl⟩
        | succ k =>
          have hbook := hkept k held hk
          rwa [Nat.add_right_comm number 1 k] at hbook

/-- What every session decides, whatever it opens with. -/
def SessionStep.Always (P : ℕ → List ℕ → List (Decision F) → Prop) (step : SessionStep F) : Prop :=
  ∀ ⦃number indices states c decisions states' c'⦄,
    (step number indices states).exec c = (.ok (decisions, states'), c') → P number indices decisions

theorem SessionStep.Always.run {P : ℕ → List ℕ → List (Decision F) → Prop} {step : SessionStep F}
    (hstep : step.Always P) {sessions : List (List ℕ)} {states : States F} {c d : FeatureCaches F}
    {decided : List (List (Decision F))}
    (hrun : (runSessions step reset stop number sessions states).exec c = (.ok decided, d)) {k : ℕ}
    {decisions : List (Decision F)} (hk : decided[k]? = some decisions) :
    ∃ indices, sessions[k]? = some indices ∧ P (number + k) indices decisions := by
  induction sessions generalizing number states c d decided k with
  | nil =>
    rw [runSessions, StateE.exec_pure, Prod.mk.injEq, Except.ok.injEq] at hrun
    obtain ⟨rfl, -⟩ := hrun
    cases hk
  | cons indices later ih =>
    rw [runSessions] at hrun
    split at hrun
    · rw [StateE.exec_pure, Prod.mk.injEq, Except.ok.injEq] at hrun
      obtain ⟨rfl, -⟩ := hrun
      cases hk
    · obtain ⟨⟨decisions', states'⟩, c₁, hdecide, hrun⟩ := exec_bind_inv hrun
      obtain ⟨rest, c₂, hrest, hrun⟩ := exec_bind_inv hrun
      rw [StateE.exec_pure, Prod.mk.injEq, Except.ok.injEq] at hrun
      obtain ⟨rfl, -⟩ := hrun
      cases k with
      | zero =>
        cases hk
        exact ⟨indices, rfl, hstep hdecide⟩
      | succ k =>
        obtain ⟨indices', hindices', hP⟩ := ih hrest hk
        rw [Nat.add_right_comm] at hP
        exact ⟨indices', hindices', hP⟩

/-- The sessions of a store take its rows in turn. -/
theorem flatten_dateRanges (S : PreparedFeatureStore F) : S.dateRanges.flatten = List.range S.size := by
  have hzip : (S.dates.zip (List.range S.size)).map Prod.snd = List.range S.size := by
    apply List.map_snd_zip
    simp [PreparedFeatureStore.dates, PreparedFeatureStore.size]
  rw [PreparedFeatureStore.dateRanges, keyRuns, ← List.map_flatten, List.flatten_splitBy, hzip]

/-- No row is in two sessions. -/
theorem dateRanges_disjoint {i j k : ℕ} {indices indices' : List ℕ} (hj : S.dateRanges[j]? = some indices)
    (hk : S.dateRanges[k]? = some indices') (hi : i ∈ indices) (hi' : i ∈ indices') : j = k := by
  have hnodup : S.dateRanges.flatten.Nodup := by
    rw [flatten_dateRanges]
    exact List.nodup_range
  have hpairwise := (List.nodup_flatten.mp hnodup).2
  by_contra hne
  have hapart : ∀ {j k : ℕ} {indices indices' : List ℕ}, j < k → S.dateRanges[j]? = some indices →
      S.dateRanges[k]? = some indices' → List.Disjoint indices indices' := by
    intro j k indices indices' hlt hj hk
    obtain ⟨hjlt, rfl⟩ := List.getElem?_eq_some_iff.mp hj
    obtain ⟨hklt, rfl⟩ := List.getElem?_eq_some_iff.mp hk
    exact List.pairwise_iff_getElem.mp hpairwise j k hjlt hklt hlt
  rcases Nat.lt_or_gt_of_ne hne with hlt | hlt
  · exact hapart hlt hj hk hi hi'
  · exact hapart hlt hk hj hi' hi

theorem mem_dateRanges_lt {i k : ℕ} {indices : List ℕ} (hk : S.dateRanges[k]? = some indices)
    (hi : i ∈ indices) : i < S.size := by
  have hmem : i ∈ S.dateRanges.flatten := List.mem_flatten.mpr ⟨_, List.mem_of_getElem? hk, hi⟩
  rw [flatten_dateRanges] at hmem
  exact List.mem_range.mp hmem

section Written
variable {decided : List (List (Decision F))} (h : RowsOfSessions S S.dateRanges decided)
include h

theorem RowsOfSessions.nodup : (decided.flatten.map Decision.index).Nodup := by
  rw [List.map_flatten, List.nodup_flatten]
  constructor
  · intro l hl
    obtain ⟨decisions, hmem, rfl⟩ := List.mem_map.mp hl
    obtain ⟨k, hk⟩ := List.getElem?_of_mem hmem
    obtain ⟨indices, -, -, honce⟩ := h k decisions hk
    exact List.Nodup.of_map S.tickerAt (by rwa [List.map_map])
  · rw [List.pairwise_map, List.pairwise_iff_getElem]
    intro j k hj hk hlt i hi hi'
    obtain ⟨d, hd, rfl⟩ := List.mem_map.mp hi
    obtain ⟨d', hd', heq⟩ := List.mem_map.mp hi'
    obtain ⟨indices, hindices, hrows, -⟩ := h j _ (List.getElem?_eq_getElem hj)
    obtain ⟨indices', hindices', hrows', -⟩ := h k _ (List.getElem?_eq_getElem hk)
    exact hlt.ne (dateRanges_disjoint hindices hindices' (hrows d hd) (heq ▸ hrows' d' hd'))

theorem RowsOfSessions.lt {d : Decision F} (hd : d ∈ decided.flatten) : d.index < S.size := by
  obtain ⟨decisions, hmem, hd⟩ := List.mem_flatten.mp hd
  obtain ⟨k, hk⟩ := List.getElem?_of_mem hmem
  obtain ⟨indices, hindices, hrows, -⟩ := h k decisions hk
  exact mem_dateRanges_lt hindices (hrows d hd)

/-- A decision about a row of a session is one of that session. -/
theorem RowsOfSessions.mem_session {d : Decision F} {k : ℕ} {indices : List ℕ} (hd : d ∈ decided.flatten)
    (hk : S.dateRanges[k]? = some indices) (hi : d.index ∈ indices) : d ∈ decided.getD k [] := by
  obtain ⟨decisions, hmem, hd⟩ := List.mem_flatten.mp hd
  obtain ⟨j, hj⟩ := List.getElem?_of_mem hmem
  obtain ⟨indices', hindices', hrows, -⟩ := h j decisions hj
  cases dateRanges_disjoint hindices' hk (hrows d hd) hi
  rwa [List.getD_eq_getElem?_getD, hj]

theorem RowsOfSessions.session_mem {d : Decision F} {k : ℕ} {indices : List ℕ}
    (hk : S.dateRanges[k]? = some indices) (hd : d ∈ decided.getD k []) :
    d ∈ decided.flatten ∧ d.index ∈ indices := by
  rw [List.getD_eq_getElem?_getD] at hd
  cases hdecided : decided[k]? with
  | none =>
    rw [hdecided] at hd
    cases hd
  | some decisions =>
    rw [hdecided, Option.getD_some] at hd
    obtain ⟨indices', hindices', hrows, -⟩ := h k decisions hdecided
    cases hk.symm.trans hindices'
    exact ⟨List.mem_flatten.mpr ⟨_, List.mem_of_getElem? hdecided, hd⟩, hrows d hd⟩

variable [NumPy F]

/-- The arrays behind the decisions, row by row. -/
theorem RowsOfSessions.written (i : ℕ) :
    let ranked := decided.flatten.foldl RankedActions.write (.blank S.size)
    (ranked.actions[i]? = some 1 ↔ ∃ score, Decision.buy i score ∈ decided.flatten) ∧
      (ranked.actions[i]? = some (-1) ↔ Decision.sell i ∈ decided.flatten) ∧
      (∀ score, Decision.buy i score ∈ decided.flatten → ranked.scores[i]? = some score) ∧
      ((∀ score, Decision.buy i score ∉ decided.flatten) → i < S.size →
        ranked.scores[i]? = some NumPy.nan) := by
  intro ranked
  have hblank : ∀ j < S.size, (RankedActions.blank (F := F) S.size).actions[j]? = some 0 ∧
      (RankedActions.blank (F := F) S.size).scores[j]? = some NumPy.nan := by
    intro j hj
    simp [RankedActions.blank, hj]
  have hbuy : ∀ score, Decision.buy i score ∈ decided.flatten →
      ranked.actions[i]? = some 1 ∧ ranked.scores[i]? = some score := by
    intro score hmem
    obtain ⟨hactions, hscores⟩ := RankedActions.foldl_write_mem h.nodup hmem (.blank S.size)
    obtain ⟨hzero, hnan⟩ := hblank i (h.lt hmem)
    constructor
    · refine hactions.trans ?_
      simp only [RankedActions.write, Decision.index, List.getElem?_set_self', hzero]
      rfl
    · refine hscores.trans ?_
      simp only [RankedActions.write, Decision.index, List.getElem?_set_self', hnan]
      rfl
  have hsell : Decision.sell i ∈ decided.flatten →
      ranked.actions[i]? = some (-1) ∧ ranked.scores[i]? = some NumPy.nan := by
    intro hmem
    obtain ⟨hactions, hscores⟩ := RankedActions.foldl_write_mem h.nodup hmem (.blank S.size)
    obtain ⟨hzero, hnan⟩ := hblank i (h.lt hmem)
    constructor
    · refine hactions.trans ?_
      simp only [RankedActions.write, Decision.index, List.getElem?_set_self', hzero]
      rfl
    · exact hscores.trans hnan
  have hother : (∀ d ∈ decided.flatten, d.index ≠ i) →
      ranked.actions[i]? = (RankedActions.blank (F := F) S.size).actions[i]? ∧
        ranked.scores[i]? = (RankedActions.blank (F := F) S.size).scores[i]? :=
    fun hnone => RankedActions.foldl_write_other hnone _
  by_cases hdecided : ∃ d ∈ decided.flatten, d.index = i
  · obtain ⟨d, hd, rfl⟩ := hdecided
    cases d with
    | buy index score =>
      obtain ⟨hone, hscore⟩ := hbuy score hd
      have hnosell : Decision.sell index ∉ decided.flatten := by
        intro hmem
        cases List.inj_on_of_nodup_map h.nodup hmem hd rfl
      refine ⟨iff_of_true hone ⟨score, hd⟩, iff_of_false ?_ hnosell, ?_, fun hnone => absurd hd (hnone score)⟩
      · rw [show ranked.actions[(Decision.buy index score).index]? = some 1 from hone]
        decide
      · intro score' hd'
        cases List.inj_on_of_nodup_map h.nodup hd' hd rfl
        exact hscore
    | sell index =>
      obtain ⟨hminus, hscore⟩ := hsell hd
      have hnobuy : ∀ score, Decision.buy index score ∉ decided.flatten := by
        intro score hmem
        cases List.inj_on_of_nodup_map h.nodup hmem hd rfl
      refine ⟨iff_of_false ?_ (fun ⟨score, hmem⟩ => hnobuy score hmem), iff_of_true hminus hd,
        fun score hmem => absurd hmem (hnobuy score), fun _ _ => hscore⟩
      rw [show ranked.actions[(Decision.sell (F := F) index).index]? = some (-1) from hminus]
      decide
  · have hnone : ∀ d ∈ decided.flatten, d.index ≠ i := fun d hd heq => hdecided ⟨d, hd, heq⟩
    obtain ⟨hactions, hscores⟩ := hother hnone
    have hvalue : ranked.actions[i]? = none ∨ ranked.actions[i]? = some 0 := by
      rw [hactions]
      by_cases hi : i < S.size
      · exact .inr (hblank i hi).1
      · left
        simp [RankedActions.blank, hi]
    refine ⟨iff_of_false ?_ fun ⟨score, hmem⟩ => hnone _ hmem rfl, iff_of_false ?_ fun hmem => hnone _ hmem rfl,
      fun score hmem => absurd rfl (hnone _ hmem), fun _ hi => hscores.trans (hblank i hi).2⟩
    · rcases hvalue with h0 | h0 <;> rw [h0] <;> decide
    · rcases hvalue with h0 | h0 <;> rw [h0] <;> decide

/-- The arrays order what the sessions decided. -/
theorem RowsOfSessions.sessionOrders :
    S.sessionOrders (decided.flatten.foldl RankedActions.write (.blank S.size)) =
      decidedOrders S S.dateRanges decided := by
  have hpoint : ∀ k indices, S.dateRanges[k]? = some indices →
      S.ordersAt (decided.flatten.foldl RankedActions.write (.blank S.size)) indices =
        decisionOrders S (decided.getD k []) := by
    intro k indices hk
    have hsells : ∀ ticker, ticker ∈ (S.ordersAt (decided.flatten.foldl RankedActions.write
        (.blank S.size)) indices).sells ↔ ticker ∈ (decisionOrders S (decided.getD k [])).sells := by
      intro ticker
      rw [mem_decisionOrders_sells, PreparedFeatureStore.ordersAt, List.mem_toFinset, List.mem_map]
      refine exists_congr fun i => and_congr_left' ?_
      rw [List.mem_filter, decide_eq_true_iff, (h.written i).2.1]
      constructor
      · rintro ⟨hi, hmem⟩
        exact h.mem_session hmem hk hi
      · intro hmem
        obtain ⟨hflat, hi⟩ := h.session_mem hk hmem
        exact ⟨hi, hflat⟩
    have hbuys : ∀ ticker, ticker ∈ (S.ordersAt (decided.flatten.foldl RankedActions.write
        (.blank S.size)) indices).buys ↔ ticker ∈ (decisionOrders S (decided.getD k [])).buys := by
      intro ticker
      rw [mem_decisionOrders_buys, PreparedFeatureStore.ordersAt, List.mem_toFinset, List.mem_map]
      constructor
      · rintro ⟨i, hi, hticker⟩
        rw [List.mem_filter, decide_eq_true_iff, (h.written i).1] at hi
        obtain ⟨hi, score, hmem⟩ := hi
        exact ⟨i, score, h.mem_session hmem hk hi, hticker⟩
      · rintro ⟨i, score, hmem, hticker⟩
        obtain ⟨hflat, hi⟩ := h.session_mem hk hmem
        refine ⟨i, ?_, hticker⟩
        rw [List.mem_filter, decide_eq_true_iff, (h.written i).1]
        exact ⟨hi, score, hflat⟩
    rw [PreparedFeatureStore.ordersAt, decisionOrders, Orders.mk.injEq]
    exact ⟨Finset.ext hsells, Finset.ext hbuys⟩
  apply List.ext_getElem?
  intro k
  rw [PreparedFeatureStore.sessionOrders, decidedOrders, List.getElem?_map, List.getElem?_mapIdx]
  cases hk : S.dateRanges[k]? with
  | none => rfl
  | some indices => exact congrArg some (hpoint k indices hk)

end Written

end Trades
end QuantAgent.Features
