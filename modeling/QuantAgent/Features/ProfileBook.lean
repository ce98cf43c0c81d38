import QuantAgent.Features.CompiledBook
import QuantAgent.Features.ProfileActions

namespace QuantAgent.Features
set_option autoImplicit true
open Holdings

section Profile
variable {F : Type} [NumPy F] {S : PreparedFeatureStore F} {parameters : CandidateParameters F}
  {features : List (FeatureRow F)}

omit [NumPy F] in
/-- What a session buys is bounded by the names it may buy. -/
theorem Decides.size_le {indices : List ℕ} {states states' : States F} {decisions : List (Decision F)}
    (h : Decides S indices states decisions states') (names : List String)
    (hnames : ∀ i score, .buy i score ∈ decisions → S.tickerAt i ∈ names) :
    states'.size ≤ states.size + names.length := by
  have hcard := h.legal.card_apply
  rw [h.apply_eq, card_heldNames, card_heldNames] at hcard
  have hbuys : (decisionOrders S decisions).buys ⊆ names.toFinset := by
    intro ticker hticker
    obtain ⟨i, score, hi, rfl⟩ := mem_decisionOrders_buys.mp hticker
    exact List.mem_toFinset.mpr (hnames i score hi)
  have hcount := (Finset.card_le_card hbuys).trans (List.toFinset_card_le names)
  omega

theorem evaluateRow_ticker (states : States F) (index : ℕ) :
    (S.evaluateRow parameters features states index).ticker = S.tickerAt index := by
  unfold PreparedFeatureStore.evaluateRow
  dsimp only
  split <;> rfl

/-- Only tickers that are not held are selected, and only as many as there are open slots. -/
theorem selectedTickers_open (parameters : CandidateParameters F) (evaluations : List (Evaluation F)) (states : States F) :
    (∀ ticker ∈ PreparedFeatureStore.selectedTickers parameters evaluations states, ticker ∉ states) ∧
      (PreparedFeatureStore.selectedTickers parameters evaluations states).length ≤
        parameters.maxPositions - states.size := by
  unfold PreparedFeatureStore.selectedTickers
  constructor
  · intro ticker hticker
    obtain ⟨item, hitem, rfl⟩ := List.mem_map.mp hticker
    have hranked := (mem_pySorted _).mp (List.mem_of_mem_take hitem)
    have hopen := (List.mem_filter.mp hranked).2
    rw [Bool.and_eq_true, decide_eq_true_iff] at hopen
    exact hopen.2
  · rw [List.length_map, List.length_take]
    exact min_le_left _ _

theorem profileMove_fits {states : States F} {selected : List String}
    (hselected : ∀ ticker ∈ selected, ticker ∉ states) (index : ℕ) :
    (S.profileMove parameters features states selected index (states.get? (S.tickerAt index))).Fits
      (states.get? (S.tickerAt index)) := by
  unfold PreparedFeatureStore.profileMove
  dsimp only
  rw [evaluateRow_ticker]
  split
  · rename_i hsell
    rw [Bool.and_eq_true] at hsell
    exact hsell.2
  · split
    · rename_i hbuy
      exact Dict.get?_eq_none_iff.mpr (hselected _ hbuy)
    · cases states.get? (S.tickerAt index) with
      | none => trivial
      | some state => exact rfl

theorem profileMove_buy {states : States F} {selected : List String} {index : ℕ}
    (h : S.profileMove parameters features states selected index state = .buy score close) :
    S.tickerAt index ∈ selected := by
  unfold PreparedFeatureStore.profileMove at h
  dsimp only at h
  rw [evaluateRow_ticker] at h
  split at h
  · cases h
  · split at h
    · assumption
    · cases state <;> cases h

/-- A session of `_profile_actions` does legal trades and keeps to the slots. -/
theorem profileSession_decides (parameters : CandidateParameters F) {indices : List ℕ}
    (hindices : (indices.map S.tickerAt).Nodup) (states : States F) :
    Decides S indices states (S.profileSession parameters features indices states).1
        (S.profileSession parameters features indices states).2 ∧
      (states.size ≤ parameters.maxPositions →
        (S.profileSession parameters features indices states).2.size ≤ parameters.maxPositions) := by
  unfold PreparedFeatureStore.profileSession
  dsimp only
  generalize hevaluations : indices.map (S.evaluateRow parameters features states) = evaluations
  obtain ⟨hopen, hslots⟩ := selectedTickers_open parameters evaluations states
  generalize PreparedFeatureStore.selectedTickers parameters evaluations states = selected at hopen hslots ⊢
  have hfits : ∀ i ∈ indices, (S.profileMove parameters features states selected i
      (states.get? (S.tickerAt i))).Fits (states.get? (S.tickerAt i)) :=
    fun i _ => profileMove_fits hopen i
  have hsettled := settleRows_settled hindices hfits
  have hdecides := hsettled.decides hfits
  refine ⟨hdecides, fun hsize => ?_⟩
  have hbuys := hdecides.size_le selected fun i score hi => by
    obtain ⟨-, close, hmove⟩ := (hsettled.buys i score).mp hi
    exact profileMove_buy hmove
  omega

end Profile
end QuantAgent.Features
