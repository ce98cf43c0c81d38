import QuantAgent.Features.CompiledBook
import QuantAgent.Features.RotationActions

namespace QuantAgent.Features
set_option autoImplicit true
open Holdings

section Rotation
variable {F : Type} [NumPy F] {S : PreparedFeatureStore F} {parameters : CandidateParameters F}
  {features : List (FeatureRow F)}

omit [NumPy F] in
theorem mem_foldl_insert {l : List (F × String)} {scores : Dict String F} :
    ticker ∈ l.foldl (fun scores item => scores.insert item.2 item.1) scores ↔
      ticker ∈ scores ∨ ticker ∈ l.map Prod.snd := by
  induction l generalizing scores with
  | nil => exact (or_iff_left List.not_mem_nil).symm
  | cons item l ih =>
    rw [List.foldl_cons, ih, Dict.mem_insert, List.map_cons, List.mem_cons]
    tauto

/-- A rotation wants no more names than there are slots. -/
theorem targetScores_card (observations : List (Observation F)) :
    (targetScores parameters observations).keys.toFinset.card ≤ parameters.maxPositions := by
  have hkeys : (targetScores parameters observations).keys.toFinset ⊆
      ((selectedTargets parameters observations).map Prod.snd).toFinset := by
    intro ticker hticker
    have hmem : ticker ∈ targetScores parameters observations := List.mem_toFinset.mp hticker
    rcases mem_foldl_insert.mp hmem with hnone | hmem
    · exact absurd hnone List.not_mem_nil
    · exact List.mem_toFinset.mpr hmem
  refine (Finset.card_le_card hkeys).trans ((List.toFinset_card_le _).trans ?_)
  rw [List.length_map, selectedTargets, List.length_take]
  exact min_le_left _ _

theorem rotationMove_fits (rotationDay : Bool) (target : Dict String F) (index : ℕ)
    (state : Option (PositionState F)) :
    (S.rotationMove parameters rotationDay target index state).Fits state := by
  unfold PreparedFeatureStore.rotationMove
  cases state with
  | some state =>
    dsimp only
    split
    · exact rfl
    · exact rfl
  | none =>
    dsimp only
    split
    · split
      · exact rfl
      · trivial
    · trivial

theorem rotationMove_buy {rotationDay : Bool} {target : Dict String F} {index : ℕ}
    (h : S.rotationMove parameters rotationDay target index state = .buy score close) :
    rotationDay = true ∧ S.tickerAt index ∈ target := by
  unfold PreparedFeatureStore.rotationMove at h
  cases state with
  | some state =>
    dsimp only at h
    split at h <;> cases h
  | none =>
    dsimp only at h
    split at h
    · rename_i hscore
      split at h
      · exact ⟨by assumption, Dict.mem_of_get? hscore⟩
      · cases h
    · cases h

/-- A held name outside the target goes on a rotation day. -/
theorem rotationMove_out {target : Dict String F} {index : ℕ} {state : PositionState F}
    (h : S.tickerAt index ∉ target) :
    S.rotationMove parameters true target index (some state) = .sell := by
  unfold PreparedFeatureStore.rotationMove
  dsimp only
  rw [decide_eq_true h, Bool.and_true, Bool.or_true, if_pos rfl]

/-- The names with a row in a session. -/
def sessionNames (S : PreparedFeatureStore F) (indices : List ℕ) : Finset String :=
  (indices.map S.tickerAt).toFinset

/-- A session of `_rotation_profile_actions` does legal trades. Behind a rotation all that is held and has
a row in the session is in the target; on other days nothing is bought. -/
theorem rotationSession_decides {indices : List ℕ} (hindices : (indices.map S.tickerAt).Nodup)
    (resetIndex : Option ℕ) (number : ℕ) (states : States F) {decisions : List (Decision F)}
    {states' : States F}
    (hsession : S.rotationSession parameters features resetIndex number indices states = (decisions, states')) :
    Decides S indices states decisions states' ∧
      (PreparedFeatureStore.rotationDay parameters resetIndex number = true →
        (heldNames states' ∩ sessionNames S indices).card ≤ parameters.maxPositions) ∧
      (PreparedFeatureStore.rotationDay parameters resetIndex number = false → ∀ ticker ∈ states', ticker ∈ states) := by
  unfold PreparedFeatureStore.rotationSession at hsession
  dsimp only at hsession
  generalize htarget : S.sessionTarget parameters features resetIndex number indices = target at hsession
  have hfits : ∀ i ∈ indices, (S.rotationMove parameters (PreparedFeatureStore.rotationDay parameters resetIndex number) target i
      (states.get? (S.tickerAt i))).Fits (states.get? (S.tickerAt i)) :=
    fun i _ => rotationMove_fits _ _ _ _
  have hsettled := settleRows_settled hindices hfits
  have hdecides := hsettled.decides hfits
  rw [hsession] at hsettled hdecides
  refine ⟨hdecides, fun hday => ?_, fun hday ticker hticker => ?_⟩
  · have hinside : heldNames states' ∩ sessionNames S indices ⊆ target.keys.toFinset := by
      intro ticker hticker
      rw [Finset.mem_inter, mem_heldNames, sessionNames, List.mem_toFinset] at hticker
      obtain ⟨hheld, hrow⟩ := hticker
      obtain ⟨i, hi, rfl⟩ := List.mem_map.mp hrow
      rw [List.mem_toFinset]
      by_contra hout
      have hout : S.tickerAt i ∉ target := hout
      rcases (hsettled.after _).mp hheld with ⟨hbefore, hkept⟩ | ⟨j, score, hj, hsame⟩
      · obtain ⟨state, hstate⟩ := Dict.mem_iff_get?.mp hbefore
        refine hkept i ((hsettled.sells i).mpr ⟨hi, ?_⟩) rfl
        rw [hstate, hday]
        exact rotationMove_out hout
      · obtain ⟨-, close, hmove⟩ := (hsettled.buys j score).mp hj
        exact hout (hsame ▸ (rotationMove_buy hmove).2)
    refine (Finset.card_le_card hinside).trans ?_
    unfold PreparedFeatureStore.sessionTarget at htarget
    rw [if_pos hday] at htarget
    exact htarget ▸ targetScores_card _
  · rcases (hsettled.after _).mp hticker with ⟨hbefore, -⟩ | ⟨i, score, hi, -⟩
    · exact hbefore
    · obtain ⟨-, close, hmove⟩ := (hsettled.buys i score).mp hi
      exact absurd (rotationMove_buy hmove).1 (by rw [hday]; exact Bool.false_ne_true)

end Rotation
end QuantAgent.Features
