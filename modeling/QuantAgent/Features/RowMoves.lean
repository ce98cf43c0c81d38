import QuantAgent.Features.BookRuns

namespace QuantAgent.Features
set_option autoImplicit true

/-- What a row does to the state of its ticker. -/
inductive Move (F : Type) where
  | sell
  | buy (score close : F)
  | mark (state : PositionState F)
  | pass

section
variable {F : Type}

/-- The rows of a session, each with its ticker's state as the rows before it leave that. -/
def PreparedFeatureStore.settleRows (S : PreparedFeatureStore F)
    (move : ℕ → Option (PositionState F) → Move F) : List ℕ → States F → List (Decision F) × States F
  | [], states => ([], states)
  | index :: rows, states =>
    let ticker := S.tickerAt index
    match move index (states.get? ticker) with
    | .sell =>
      let (decisions, states) := S.settleRows move rows (states.erase ticker)
      (.sell index :: decisions, states)
    | .buy score close =>
      let (decisions, states) := S.settleRows move rows (states.insert ticker ⟨close, close, 0⟩)
      (.buy index score :: decisions, states)
    | .mark state => S.settleRows move rows (states.insert ticker state)
    | .pass => S.settleRows move rows states

/-- A session decides about its own rows, and buys where a row moves so. -/
theorem settleRows_mem {S : PreparedFeatureStore F} (move : ℕ → Option (PositionState F) → Move F)
    (rows : List ℕ) (states : States F) : ∀ d ∈ (S.settleRows move rows states).1, d.index ∈ rows ∧
      ∀ score, d = .buy d.index score → ∃ state close, move d.index state = .buy score close := by
  induction rows generalizing states with
  | nil => exact fun _ hd => absurd hd List.not_mem_nil
  | cons index rows ih =>
    have hlater : ∀ states, ∀ d ∈ (S.settleRows move rows states).1, d.index ∈ index :: rows ∧
        ∀ score, d = .buy d.index score → ∃ state close, move d.index state = .buy score close := by
      intro states d hd
      obtain ⟨hrow, hbuys⟩ := ih states d hd
      exact ⟨List.mem_cons_of_mem _ hrow, hbuys⟩
    intro d hd
    rw [PreparedFeatureStore.settleRows] at hd
    cases hmove : move index (states.get? (S.tickerAt index)) with
    | sell =>
      simp only [hmove] at hd
      rcases List.mem_cons.mp hd with rfl | hd
      · exact ⟨List.mem_cons_self, fun score heq => absurd heq nofun⟩
      · exact hlater _ d hd
    | buy score close =>
      simp only [hmove] at hd
      rcases List.mem_cons.mp hd with rfl | hd
      · refine ⟨List.mem_cons_self, fun score' heq => ?_⟩
        cases heq
        exact ⟨_, close, hmove⟩
      · exact hlater _ d hd
    | mark state =>
      simp only [hmove] at hd
      exact hlater _ d hd
    | pass =>
      simp only [hmove] at hd
      exact hlater _ d hd

/-- Moves a state allows: what is sold or marked is in position, and what is bought is not. -/
def Move.Fits (state : Option (PositionState F)) : Move F → Prop
  | .sell => state.isSome
  | .buy _ _ => state = none
  | .mark _ => state.isSome
  | .pass => True

/-- What the rows of a session did. -/
structure Settled (S : PreparedFeatureStore F) (move : ℕ → Option (PositionState F) → Move F)
    (rows : List ℕ) (states : States F) (decisions : List (Decision F)) (states' : States F) : Prop where
  once : (decisions.map S.decided).Nodup
  sells : ∀ i, .sell i ∈ decisions ↔ i ∈ rows ∧ move i (states.get? (S.tickerAt i)) = .sell
  buys : ∀ i score, .buy i score ∈ decisions ↔
    i ∈ rows ∧ ∃ close, move i (states.get? (S.tickerAt i)) = .buy score close
  after : ∀ ticker, ticker ∈ states' ↔
    (ticker ∈ states ∧ ∀ i, .sell i ∈ decisions → S.tickerAt i ≠ ticker) ∨
      ∃ i score, .buy i score ∈ decisions ∧ S.tickerAt i = ticker

namespace Settled
variable {S : PreparedFeatureStore F} {move : ℕ → Option (PositionState F) → Move F} {rows : List ℕ}
  {states states₁ states' : States F} {decisions : List (Decision F)}

theorem mem_rows (h : Settled S move rows states decisions states') : ∀ d ∈ decisions, d.index ∈ rows := by
  intro d hd
  cases d with
  | buy i score => exact ((h.buys i score).mp hd).1
  | sell i => exact ((h.sells i).mp hd).1

/-- One more row in front, whose move is not an order. -/
theorem cons_quiet (h : Settled S move rows states₁ decisions states')
    (hget : ∀ i ∈ rows, states₁.get? (S.tickerAt i) = states.get? (S.tickerAt i))
    (hsame : ∀ ticker, ticker ∈ states₁ ↔ ticker ∈ states)
    (hsell : move index (states.get? (S.tickerAt index)) ≠ .sell)
    (hbuy : ∀ score close, move index (states.get? (S.tickerAt index)) ≠ .buy score close) :
    Settled S move (index :: rows) states decisions states' := by
  refine ⟨h.once, ?_, ?_, ?_⟩
  · intro i
    rw [h.sells, List.mem_cons]
    constructor
    · exact fun ⟨hi, hmove⟩ => ⟨.inr hi, by rwa [← hget i hi]⟩
    · rintro ⟨rfl | hi, hmove⟩
      · exact absurd hmove hsell
      · exact ⟨hi, by rwa [hget i hi]⟩
  · intro i score
    rw [h.buys, List.mem_cons]
    constructor
    · exact fun ⟨hi, hmove⟩ => ⟨.inr hi, by rwa [← hget i hi]⟩
    · rintro ⟨rfl | hi, close, hmove⟩
      · exact absurd hmove (hbuy score close)
      · exact ⟨hi, close, by rwa [hget i hi]⟩
  · intro ticker
    rw [h.after, hsame]

/-- One more row in front, whose move is an order. -/
theorem cons_order (decision : Decision F) (h : Settled S move rows states₁ decisions states')
    (hget : ∀ i ∈ rows, states₁.get? (S.tickerAt i) = states.get? (S.tickerAt i))
    (hother : ∀ i ∈ rows, S.tickerAt i ≠ S.tickerAt decision.index)
    (hsell : move decision.index (states.get? (S.tickerAt decision.index)) = .sell ↔
      decision = .sell decision.index)
    (hbuy : ∀ score, (∃ close, move decision.index (states.get? (S.tickerAt decision.index)) =
      .buy score close) ↔ decision = .buy decision.index score)
    (hafter : ∀ ticker, ticker ∈ states₁ ↔
      (ticker ∈ states ∧ (decision = .sell decision.index → S.tickerAt decision.index ≠ ticker)) ∨
        ((∃ score, decision = .buy decision.index score) ∧ S.tickerAt decision.index = ticker)) :
    Settled S move (decision.index :: rows) states (decision :: decisions) states' := by
  have hnot : decision.index ∉ rows := fun hmem => hother _ hmem rfl
  refine ⟨?_, ?_, ?_, ?_⟩
  · rw [List.map_cons, List.nodup_cons]
    refine ⟨fun hmem => ?_, h.once⟩
    obtain ⟨d, hd, heq⟩ := List.mem_map.mp hmem
    exact hother _ (h.mem_rows d hd) heq
  · intro i
    rw [List.mem_cons, List.mem_cons, h.sells]
    constructor
    · rintro (hdecision | ⟨hi, hmove⟩)
      · subst hdecision
        exact ⟨.inl rfl, hsell.mpr rfl⟩
      · exact ⟨.inr hi, by rwa [← hget i hi]⟩
    · rintro ⟨rfl | hi, hmove⟩
      · exact .inl (hsell.mp hmove).symm
      · exact .inr ⟨hi, by rwa [hget i hi]⟩
  · intro i score
    rw [List.mem_cons, List.mem_cons, h.buys]
    constructor
    · rintro (hdecision | ⟨hi, hmove⟩)
      · subst hdecision
        exact ⟨.inl rfl, (hbuy score).mpr rfl⟩
      · exact ⟨.inr hi, by rwa [← hget i hi]⟩
    · rintro ⟨rfl | hi, hmove⟩
      · exact .inl ((hbuy score).mp hmove).symm
      · exact .inr ⟨hi, by rwa [hget i hi]⟩
  · intro ticker
    rw [h.after, hafter]
    simp only [List.mem_cons]
    constructor
    · rintro (⟨⟨hheld, hkept⟩ | ⟨⟨score, hscore⟩, rfl⟩, hsold⟩ | ⟨i, score, hi, rfl⟩)
      · refine .inl ⟨hheld, ?_⟩
        rintro i (hdecision | hi)
        · subst hdecision
          exact hkept rfl
        · exact hsold i hi
      · exact .inr ⟨_, score, .inl hscore.symm, rfl⟩
      · exact .inr ⟨i, score, .inr hi, rfl⟩
    · rintro (⟨hheld, hsold⟩ | ⟨i, score, hdecision | hi, rfl⟩)
      · refine .inl ⟨.inl ⟨hheld, fun hdecision => ?_⟩, fun i hi => hsold i (.inr hi)⟩
        exact hsold _ (.inl hdecision.symm)
      · subst hdecision
        refine .inl ⟨.inr ⟨⟨score, rfl⟩, rfl⟩, fun i hi => ?_⟩
        exact hother i (h.mem_rows _ hi)
      · exact .inr ⟨i, score, hi, rfl⟩

end Settled

/-- The rows of a session settle as their moves say, where no ticker has two of them. -/
theorem settleRows_settled {S : PreparedFeatureStore F} {move : ℕ → Option (PositionState F) → Move F}
    {rows : List ℕ} (hrows : (rows.map S.tickerAt).Nodup) {states : States F}
    (hfits : ∀ i ∈ rows, (move i (states.get? (S.tickerAt i))).Fits (states.get? (S.tickerAt i))) :
    Settled S move rows states (S.settleRows move rows states).1 (S.settleRows move rows states).2 := by
  induction rows generalizing states with
  | nil => exact ⟨List.nodup_nil, by simp [PreparedFeatureStore.settleRows],
      by simp [PreparedFeatureStore.settleRows], by simp [PreparedFeatureStore.settleRows]⟩
  | cons index rows ih =>
    rw [List.map_cons, List.nodup_cons] at hrows
    rw [List.forall_mem_cons] at hfits
    have hother : ∀ i ∈ rows, S.tickerAt i ≠ S.tickerAt index :=
      fun i hi heq => hrows.1 (List.mem_map.mpr ⟨i, hi, heq⟩)
    -- the rows behind this one find the states of their own tickers as they were
    have hlater : ∀ states₁ : States F,
        (∀ ticker, ticker ≠ S.tickerAt index → states₁.get? ticker = states.get? ticker) →
        (∀ i ∈ rows, states₁.get? (S.tickerAt i) = states.get? (S.tickerAt i)) ∧
          Settled S move rows states₁ (S.settleRows move rows states₁).1 (S.settleRows move rows states₁).2 := by
      intro states₁ hsame
      have hget : ∀ i ∈ rows, states₁.get? (S.tickerAt i) = states.get? (S.tickerAt i) :=
        fun i hi => hsame _ (hother i hi)
      refine ⟨hget, ih hrows.2 fun i hi => ?_⟩
      rw [hget i hi]
      exact hfits.2 i hi
    have hinsert : ∀ (state : PositionState F) (ticker : String), ticker ≠ S.tickerAt index →
        (states.insert (S.tickerAt index) state).get? ticker = states.get? ticker :=
      fun state ticker hne => by rw [Dict.get?_insert, if_neg hne]
    have hfit := hfits.1
    cases hmove : move index (states.get? (S.tickerAt index)) with
    | sell =>
      rw [hmove] at hfit
      obtain ⟨hget, hrest⟩ := hlater (states.erase (S.tickerAt index))
        fun ticker hne => by rw [Dict.get?_erase, if_neg hne]
      simp only [PreparedFeatureStore.settleRows, hmove]
      apply hrest.cons_order (.sell index) hget hother
      · exact iff_of_true hmove rfl
      · intro score
        refine iff_of_false ?_ (by rintro ⟨⟩)
        rintro ⟨close, hbuy⟩
        cases hmove.symm.trans hbuy
      · intro ticker
        rw [Dict.mem_erase]
        simp [Decision.index, and_comm, eq_comm]
    | buy score close =>
      rw [hmove] at hfit
      obtain ⟨hget, hrest⟩ := hlater (states.insert (S.tickerAt index) ⟨close, close, 0⟩) (hinsert _)
      simp only [PreparedFeatureStore.settleRows, hmove]
      apply hrest.cons_order (.buy index score) hget hother
      · refine iff_of_false ?_ (by rintro ⟨⟩)
        intro hsell
        cases hmove.symm.trans hsell
      · intro score'
        constructor
        · rintro ⟨close', hbuy⟩
          cases hmove.symm.trans hbuy
          rfl
        · intro heq
          cases heq
          exact ⟨close, hmove⟩
      · intro ticker
        rw [Dict.mem_insert]
        simp [Decision.index, or_comm, eq_comm]
    | mark state =>
      rw [hmove] at hfit
      obtain ⟨hget, hrest⟩ := hlater (states.insert (S.tickerAt index) state) (hinsert _)
      simp only [PreparedFeatureStore.settleRows, hmove]
      obtain ⟨held, hheld⟩ := Option.isSome_iff_exists.mp hfit
      have hmem : S.tickerAt index ∈ states := Dict.mem_of_get? hheld
      apply hrest.cons_quiet hget
      · intro ticker
        rw [Dict.mem_insert]
        constructor
        · rintro (rfl | hmem')
          · exact hmem
          · exact hmem'
        · exact .inr
      · rw [hmove]
        rintro ⟨⟩
      · rw [hmove]
        rintro _ _ ⟨⟩
    | pass =>
      obtain ⟨hget, hrest⟩ := hlater states fun _ _ => rfl
      simp only [PreparedFeatureStore.settleRows, hmove]
      apply hrest.cons_quiet hget fun _ => Iff.rfl
      · rw [hmove]
        rintro ⟨⟩
      · rw [hmove]
        rintro _ _ ⟨⟩

theorem Settled.decides {S : PreparedFeatureStore F} {move : ℕ → Option (PositionState F) → Move F}
    {indices : List ℕ} {states states' : States F} {decisions : List (Decision F)}
    (h : Settled S move indices states decisions states')
    (hfits : ∀ i ∈ indices, (move i (states.get? (S.tickerAt i))).Fits (states.get? (S.tickerAt i))) :
    Decides S indices states decisions states' where
  rows := h.mem_rows
  once := h.once
  sells i hi := by
    obtain ⟨hmem, hmove⟩ := (h.sells i).mp hi
    have hfit := hfits i hmem
    rw [hmove] at hfit
    obtain ⟨state, hstate⟩ := Option.isSome_iff_exists.mp hfit
    exact Dict.mem_of_get? hstate
  buys i score hi := by
    obtain ⟨hmem, close, hmove⟩ := (h.buys i score).mp hi
    have hfit := hfits i hmem
    rw [hmove] at hfit
    exact Dict.get?_eq_none_iff.mp hfit
  after := h.after

end
end QuantAgent.Features
