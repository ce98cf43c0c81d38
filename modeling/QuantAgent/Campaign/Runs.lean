import QuantAgent.Campaign.Selected

namespace QuantAgent.Campaign
open QuantAgent.Features
set_option autoImplicit true

section
variable {F : Type} [NumPy F]

/-- The candidate that traded a session of a published result. -/
def Traded (result : CandidateBacktestResult F) (date : String) (candidate : CodeCandidate F) : Prop :=
  match result.walkForward with
  | none => candidate = result.selected
  | some walkForward => ∃ selection ∈ walkForward.selections,
      date ∈ selection.evaluationSessions ∧ candidate = selection.trader

/-- A fact about candidates that only their rule decides, and that Python code does not have. -/
structure RuleFact (P : CodeCandidate F → Prop) : Prop where
  congr : ∀ {c d : CodeCandidate F}, c.SameRule d → P d → P c
  structured : ∀ {c : CodeCandidate F}, P c → isStructured c

/-- A result whose selection and whose every published session belong to candidates with the fact. -/
structure ResultOf (P : CodeCandidate F → Prop) (result : CandidateBacktestResult F) : Prop where
  selected : P result.selected
  traders : ∀ date c, Traded result date c → P c
  covered : ∀ date ∈ result.equitySessions, ∃ c, Traded result date c

variable {P : CodeCandidate F → Prop} {session : Session F}

theorem runSingleSplit_resultOf (hP : RuleFact P) {candidates : List (CodeCandidate F)}
    {result : CandidateBacktestResult F} (h : ∀ c ∈ candidates, P c)
    (hrun : runSingleSplit session candidates = .ok result) : ResultOf P result := by
  obtain ⟨hnone, evaluations, hevaluations, selected, hselected, hsame⟩ := runSingleSplit_selected hrun
  have hvalid := preferred_subset (preferred_subset hselected)
  obtain ⟨c, hc, hcsame⟩ := validCandidates_sameRule hevaluations hvalid
  have hresult : P result.selected := hP.congr (hsame.trans hcsame) (h c hc)
  refine ⟨hresult, ?_, ?_⟩
  · intro date c htraded
    rw [Traded, hnone] at htraded
    exact htraded ▸ hresult
  · intro date _
    exact ⟨result.selected, by rw [Traded, hnone]⟩

/-- The candidate a fold selects, and the one it runs, are among the tradable ones. -/
theorem FoldClaim.rule (hP : RuleFact P) {tradable : List (CodeCandidate F)} {claimed : List String}
    {selection : WalkForwardFoldSelection F} (hclaim : FoldClaim session tradable claimed selection)
    (h : ∀ c ∈ tradable, P c) : P selection.candidate ∧ P selection.trader := by
  obtain ⟨eligible, heligible, hselected⟩ := hclaim.selected
  obtain ⟨c, hc, hsame⟩ := eligibleInFold_sameRule heligible (preferred_subset (pyMaxBy_mem hselected))
  refine ⟨hP.congr hsame (h c hc), ?_⟩
  rw [hclaim.trader]
  exact h _ (payloadOf_mem hc hsame)

theorem runWalkForward_resultOf (hP : RuleFact P) {candidates : List (CodeCandidate F)}
    {result : CandidateBacktestResult F} (h : ∀ c ∈ candidates, P c)
    (hrun : runWalkForward session candidates = .ok result) : ResultOf P result := by
  obtain ⟨walkForward, hresult⟩ := runWalkForward_result hrun
  have hrule : ∀ selection ∈ walkForward.selections, P selection.candidate ∧ P selection.trader := by
    intro selection hselection
    obtain ⟨-, claimed, hclaim⟩ := hresult.claims.claim selection hselection
    exact hclaim.rule hP fun c hc => h c (List.mem_of_mem_filter hc)
  refine ⟨?_, ?_, ?_⟩
  · obtain ⟨last, hlast, hselected⟩ := hresult.last
    rw [hselected]
    exact (hrule last (List.mem_of_getLast? hlast)).1
  · intro date c htraded
    rw [Traded, hresult.published] at htraded
    obtain ⟨selection, hselection, -, rfl⟩ := htraded
    exact (hrule selection hselection).2
  · intro date hdate
    rw [hresult.curve] at hdate
    obtain ⟨entry, hentry, rfl⟩ := List.mem_map.mp hdate
    obtain ⟨selection, hselection, hsession⟩ := hresult.sessions entry hentry
    exact ⟨selection.trader, by
      rw [Traded, hresult.published]
      exact ⟨selection, hselection, hsession, rfl⟩⟩

theorem runCandidateBacktest_resultOf (hP : RuleFact P) {candidates : List (CodeCandidate F)}
    {result : CandidateBacktestResult F} (h : ∀ c ∈ candidates, P c)
    (hrun : runCandidateBacktest session candidates = .ok result) : ResultOf P result := by
  have hstructured : candidates.all isStructured = true :=
    List.all_eq_true.mpr fun c hc => hP.structured (h c hc)
  unfold runCandidateBacktest at hrun
  rw [hstructured] at hrun
  split at hrun
  · cases hrun
  · split at hrun
    · exact runWalkForward_resultOf hP h hrun
    · exact runSingleSplit_resultOf hP h hrun

/-- The correction for the width of the search changes no selection and no session. -/
theorem ResultOf.correct (hP : RuleFact P) {result : CandidateBacktestResult F}
    (h : ResultOf P result) (count : ℕ) : ResultOf P (applySelectionCorrection session result count) := by
  unfold applySelectionCorrection
  split
  · exact h
  · rename_i metrics hmetrics
    dsimp only
    have hsame : ∀ m : Option (BacktestMetrics F),
        ({ result.selected with metrics := m } : CodeCandidate F).SameRule result.selected :=
      fun _ => ⟨rfl, rfl⟩
    cases hwalk : result.walkForward with
    | none =>
      have hready : readyAggregate result = none := by rw [readyAggregate, hwalk]
      rw [hready]
      refine ⟨hP.congr (hsame _) h.selected, ?_, ?_⟩
      · rintro date c rfl
        exact hP.congr (hsame _) h.selected
      · exact fun _ _ => ⟨_, rfl⟩
    | some walkForward =>
      have htraded : ∀ date c, Traded result date c ↔ ∃ selection ∈ walkForward.selections,
          date ∈ selection.evaluationSessions ∧ c = selection.trader := by
        intro date c
        rw [Traded, hwalk]
      refine ⟨hP.congr (hsame _) h.selected, ?_, ?_⟩
      · intro date c hc
        refine h.traders date c ((htraded date c).mpr ?_)
        cases hready : readyAggregate result with
        | none => simpa [Traded, hready] using hc
        | some aggregate => simpa [Traded, hready] using hc
      · intro date hdate
        obtain ⟨c, hc⟩ := h.covered date hdate
        refine ⟨c, ?_⟩
        have hselection := (htraded date c).mp hc
        cases hready : readyAggregate result with
        | none => simpa [Traded, hready] using hselection
        | some aggregate => simpa [Traded, hready] using hselection

variable [DecidableEq κ] {shop : Workshop F κ} {clock : Clock} {strategy : StrategySpec F}
  {plan : CodeGenerationPlan F} {maxPositions : ℕ}

/-- What a run evaluates beyond the candidates it starts with are proposals of its rounds. -/
theorem refine_candidates (candidates : List (CodeCandidate F)) (result : CandidateBacktestResult F)
    (campaign : ResearchCampaign κ) (roundsRun : ℕ) :
    ∃ extra, (refine shop session clock strategy plan maxPositions candidates result campaign
        roundsRun).candidates = candidates ++ extra ∧
      ∀ c ∈ extra, ∃ start iteration, c ∈ generateSelfImprovementCandidates shop strategy plan start
        iteration maxPositions := by
  fun_induction refine shop session clock strategy plan maxPositions candidates result campaign
    roundsRun with
  | case1 | case2 | case3 | case4 | case5 =>
    exact ⟨[], (List.append_nil _).symm, List.forall_mem_nil _⟩
  | case6 =>
    rename_i improved _ _ _ _
    exact ⟨improved, rfl, fun c hc => ⟨_, _, List.mem_of_mem_filter hc⟩⟩
  | case7 =>
    rename_i improved _ _ _ _ _ _ ih
    obtain ⟨extra, hextra, hall⟩ := ih
    refine ⟨improved ++ extra, hextra.trans (List.append_assoc _ _ _), ?_⟩
    intro c hc
    rcases List.mem_append.mp hc with hc | hc
    · exact ⟨_, _, List.mem_of_mem_filter hc⟩
    · exact hall c hc

/-- What the loop starts with and every proposal have, every result of it has. -/
theorem refine_resultOf (hP : RuleFact P)
    (hproposed : ∀ start iteration, ∀ c ∈ generateSelfImprovementCandidates shop strategy plan start
      iteration maxPositions, P c)
    {candidates : List (CodeCandidate F)} {result : CandidateBacktestResult F}
    {campaign : ResearchCampaign κ} {roundsRun : ℕ} (h : ∀ c ∈ candidates, P c)
    (hresult : ResultOf P result) {final : CandidateBacktestResult F}
    (hfinal : (refine shop session clock strategy plan maxPositions candidates result campaign
      roundsRun).outcome = .ok final) : ResultOf P final := by
  fun_induction refine shop session clock strategy plan maxPositions candidates result campaign
    roundsRun with
  | case1 | case2 | case4 | case5 =>
    cases hfinal
    exact hresult
  | case3 | case6 => cases hfinal
  | case7 =>
    rename_i _ improved _ widened next hnext _ _ ih
    have hall : ∀ c ∈ widened, P c := by
      intro c hc
      rcases List.mem_append.mp hc with hc | hc
      · exact h c hc
      · exact hproposed _ _ c (List.mem_of_mem_filter hc)
    have hround : ∀ count, ResultOf P (applySelectionCorrection session next count) :=
      fun count => ResultOf.correct hP (runCandidateBacktest_resultOf hP hall hnext) count
    refine ih hall ?_ hfinal
    split
    · exact hround _
    · exact hresult

end

end QuantAgent.Campaign
