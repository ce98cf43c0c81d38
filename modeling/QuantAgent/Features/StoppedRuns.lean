import QuantAgent.Features.GeneratorCausality
import QuantAgent.Features.Generators

namespace QuantAgent.Features
set_option autoImplicit true

section Stops
variable {F : Type} {S : PreparedFeatureStore F}

/-- A loop that is stopped decides what the whole loop decides up to there. -/
theorem runSessions_stopped {step : SessionStep F} {sessions : List (List ℕ)} {states : States F}
    {c d : FeatureCaches F} {decided : List (List (Decision F))}
    (hfull : (runSessions step reset none number sessions states).exec c = (.ok decided, d)) (last : ℕ) :
    ∃ d', (runSessions step reset (some last) number sessions states).exec c =
      (.ok (decided.take (last + 1 - number)), d') := by
  induction sessions generalizing number states c d decided with
  | nil =>
    rw [runSessions, StateE.exec_pure, Prod.mk.injEq, Except.ok.injEq] at hfull
    obtain ⟨rfl, -⟩ := hfull
    rw [runSessions, List.take_nil]
    exact ⟨c, StateE.exec_pure _ _⟩
  | cons indices later ih =>
    rw [runSessions, if_neg (by simp)] at hfull
    obtain ⟨⟨decisions, states'⟩, c₁, hdecide, hfull⟩ := exec_bind_inv hfull
    obtain ⟨rest, c₂, hrest, hfull⟩ := exec_bind_inv hfull
    rw [StateE.exec_pure, Prod.mk.injEq, Except.ok.injEq] at hfull
    obtain ⟨rfl, -⟩ := hfull
    by_cases hstopped : last < number
    · have hnone : last + 1 - number = 0 := by omega
      rw [runSessions, if_pos ⟨last, rfl, hstopped⟩, hnone, List.take_zero]
      exact ⟨c, StateE.exec_pure _ _⟩
    · have hmore : last + 1 - number = last + 1 - (number + 1) + 1 := by omega
      have hgoing : ¬∃ stop ∈ some last, stop < number := by
        rintro ⟨stop, hstop, hlt⟩
        cases hstop
        exact hstopped hlt
      obtain ⟨d', hd'⟩ := ih hrest
      refine ⟨d', ?_⟩
      rw [runSessions, if_neg hgoing, hmore, List.take_succ_cons, StateE.exec_bind, hdecide]
      change ((runSessions step reset (some last) (number + 1) later states') >>= fun rest =>
        pure (decisions :: rest)).exec c₁ = _
      rw [StateE.exec_bind, hd']
      exact StateE.exec_pure _ _

/-- What the arrays of a stopped run hold: up to the session it stops at, what the whole run orders, and
nothing behind it. -/
def StoppedAt [NumPy F] (S : PreparedFeatureStore F) (last : ℕ) (ranked stopped : RankedActions F) : Prop :=
  ∀ (k : ℕ) (indices : List ℕ), S.dateRanges[k]? = some indices → ∀ i ∈ indices,
    (k ≤ last → stopped.actions[i]? = ranked.actions[i]? ∧ stopped.scores[i]? = ranked.scores[i]?) ∧
    (last < k → stopped.actions[i]? = some 0 ∧ stopped.scores[i]? = some NumPy.nan)

variable [NumPy F] {ranked : RankedActions F} {c d : FeatureCaches F}

theorem generate_stopped {step : SessionStep F} (hrows : step.OwnRows)
    (hfull : (S.generate step reset none).exec c = (.ok ranked, d)) (last : ℕ) :
    ∃ stopped d', (S.generate step reset (some last)).exec c = (.ok stopped, d') ∧
      StoppedAt S last ranked stopped := by
  unfold PreparedFeatureStore.generate at hfull ⊢
  obtain ⟨decided, c₁, hsessions, hfull⟩ := exec_bind_inv hfull
  rw [StateE.exec_pure, Prod.mk.injEq, Except.ok.injEq] at hfull
  obtain ⟨rfl, -⟩ := hfull
  obtain ⟨d', hstopped⟩ := runSessions_stopped hsessions last
  rw [Nat.sub_zero] at hstopped
  refine ⟨(decided.take (last + 1)).flatten.foldl RankedActions.write (.blank S.size), d', ?_, ?_⟩
  · rw [StateE.exec_bind, hstopped]
    exact StateE.exec_pure _ _
  · intro k indices hindices i hi
    have hsession : ∀ (j : ℕ) (decisions : List (Decision F)), decided[j]? = some decisions →
        ∀ d ∈ decisions, d.index = i → j = k := by
      intro j decisions hj d hd heq
      obtain ⟨indices', hindices', hinside⟩ := SessionStep.Always.run hrows hsessions hj
      exact dateRanges_disjoint hindices' hindices (heq ▸ hinside d hd) hi
    constructor
    · intro hk
      have hflatten : decided.flatten = (decided.take (last + 1)).flatten ++
          (decided.drop (last + 1)).flatten := by
        rw [← List.flatten_append, List.take_append_drop]
      have hother : ∀ d ∈ (decided.drop (last + 1)).flatten, d.index ≠ i := by
        intro d hd heq
        obtain ⟨decisions, hmem, hd⟩ := List.mem_flatten.mp hd
        obtain ⟨j, hj⟩ := List.getElem?_of_mem hmem
        rw [List.getElem?_drop] at hj
        have hsame := hsession _ decisions hj d hd heq
        omega
      rw [hflatten, List.foldl_append]
      obtain ⟨hactions, hscores⟩ := RankedActions.foldl_write_other hother
        ((decided.take (last + 1)).flatten.foldl RankedActions.write (.blank S.size))
      exact ⟨hactions.symm, hscores.symm⟩
    · intro hk
      have hother : ∀ d ∈ (decided.take (last + 1)).flatten, d.index ≠ i := by
        intro d hd heq
        obtain ⟨decisions, hmem, hd⟩ := List.mem_flatten.mp hd
        obtain ⟨j, hj⟩ := List.getElem?_of_mem hmem
        have hlt : j < last + 1 := by
          by_contra hge
          rw [List.getElem?_take_eq_none (not_lt.mp hge)] at hj
          cases hj
        rw [List.getElem?_take_of_lt hlt] at hj
        have hsame := hsession _ decisions hj d hd heq
        omega
      obtain ⟨hactions, hscores⟩ := RankedActions.foldl_write_other hother (.blank S.size)
      have hlt := mem_dateRanges_lt hindices hi
      rw [hactions, hscores]
      simp [RankedActions.blank, hlt]

/-- The loop over the sessions behind `build_ranked_actions`. -/
theorem buildRankedActions_generate (strategyIr : StrategyIR F) (parameters : CandidateParameters F)
    (resetSession : Option String) : ∃ step : SessionStep F, step.OwnRows ∧ ∀ stopAfterSession,
      S.buildRankedActions strategyIr parameters resetSession stopAfterSession =
        S.generate step (S.sessionIndex resetSession) (S.sessionIndex stopAfterSession) := by
  by_cases hcompiled : parameters.profile = .compiledConditions
  · refine ⟨S.compiledSession strategyIr parameters (S.sessionIndex resetSession), ?_, fun _ => if_pos hcompiled⟩
    exact fun _ _ _ _ _ _ _ hrun => (compiledSession_decides hrun).1.rows
  · by_cases hrotation : parameters.profile ∈ PreparedFeatureStore.automaticTournamentProfiles
    · refine ⟨_, ?_, fun _ => (if_neg hcompiled).trans (if_pos hrotation)⟩
      exact ownRows_pure fun _ _ _ d hd => (settleRows_mem _ _ _ d hd).1
    · refine ⟨_, ?_, fun _ => (if_neg hcompiled).trans (if_neg hrotation)⟩
      exact ownRows_pure fun _ _ _ d hd => (settleRows_mem _ _ _ d hd).1

/-- Stopping after a session drops the orders behind it and no other. -/
theorem buildRankedActions_stopped {strategyIr : StrategyIR F} {parameters : CandidateParameters F}
    {resetSession : Option String} (hlast : S.sessionIndex (some date) = some last)
    (hfull : (S.buildRankedActions strategyIr parameters resetSession none).exec c = (.ok ranked, d)) :
    ∃ stopped d', (S.buildRankedActions strategyIr parameters resetSession (some date)).exec c =
      (.ok stopped, d') ∧ StoppedAt S last ranked stopped := by
  obtain ⟨step, hrows, heq⟩ := buildRankedActions_generate (S := S) strategyIr parameters resetSession
  rw [heq] at hfull ⊢
  rw [hlast]
  exact generate_stopped hrows hfull last

theorem buildRankedActions_stopped_sample : ∃ ranked stopped : RankedActions (Flt ℚ),
    StoppedAt sampleStore 0 ranked stopped := by
  obtain ⟨ranked, d, hrun⟩ := exec_of_isOk (s := FeatureCaches.empty)
    (show ((sampleStore.buildRankedActions sampleIr (sampleParameters .compiledConditions) none none).exec
      .empty).1.toBool = true by decide +kernel)
  have hlast : sampleStore.sessionIndex (some "2024-01-02") = some 0 := by decide +kernel
  obtain ⟨stopped, d', -, hstopped⟩ := buildRankedActions_stopped hlast hrun
  exact ⟨ranked, stopped, hstopped⟩

end Stops
end QuantAgent.Features
