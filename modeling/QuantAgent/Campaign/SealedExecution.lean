import QuantAgent.Campaign.Sealed

namespace QuantAgent.Campaign
open QuantAgent.Features
set_option autoImplicit true

section Rounds
variable {F : Type} [NumPy F] [DecidableEq κ] {shop : Workshop F κ} {session : Session F}
  {clock : Clock} {strategy : StrategySpec F} {plan : CodeGenerationPlan F} {maxPositions : ℕ}
  {candidates : List (CodeCandidate F)} {result : CandidateBacktestResult F}
  {campaign : ResearchCampaign κ} {roundsRun : ℕ}

/-- Whether the loop gets to propose candidates after a result. -/
structure RoundStarts (session : Session F) (clock : Clock) (strategy : StrategySpec F)
    (result : CandidateBacktestResult F) (campaign : ResearchCampaign κ) : Prop where
  floor : objectiveFloorReasons session (strategy.selectionMode = .automatic) result ≠ []
  allowed : campaign.allowNextRound.1 = true
  deadline : clock.pastDeadline (campaign.roundsStarted + 1) = false
  fits : clock.roundFits (campaign.roundsStarted + 1) = true

/-- A loop that proposes nothing keeps the candidates and the result it starts with. -/
theorem refine_settled (h : ¬ RoundStarts session clock strategy result campaign) :
    (refine shop session clock strategy plan maxPositions candidates result campaign
        roundsRun).candidates = candidates ∧
      ∀ final, (refine shop session clock strategy plan maxPositions candidates result campaign
        roundsRun).outcome = .ok final → final = result := by
  fun_cases refine shop session clock strategy plan maxPositions candidates result campaign
    roundsRun with
  | case1 =>
    refine ⟨rfl, ?_⟩
    intro final hfinal
    cases hfinal
    rfl
  | case2 | case4 | case5 =>
    refine ⟨rfl, ?_⟩
    intro final hfinal
    cases hfinal
    rfl
  | case3 =>
    refine ⟨rfl, ?_⟩
    intro final hfinal
    cases hfinal
  | case6 =>
    rename_i hfloor _ hallowed _ hdeadline hfits _ _ _ _ _ _ _
    exact absurd ⟨hfloor, congrArg Prod.fst hallowed, Bool.eq_false_of_not_eq_true hdeadline,
      not_not.mp hfits⟩ h
  | case7 =>
    rename_i hfloor _ hallowed _ hdeadline hfits _ _ _ _ _ _ _ _ _
    exact absurd ⟨hfloor, congrArg Prod.fst hallowed, Bool.eq_false_of_not_eq_true hdeadline,
      not_not.mp hfits⟩ h

/-- Where a round starts and proposes something new, the run evaluates more than it started with. -/
theorem refine_grows (h : RoundStarts session clock strategy result campaign)
    {proposal : CodeCandidate F} (hproposal : proposal ∈ generateSelfImprovementCandidates shop strategy
      plan (candidates.length + 1) (campaign.roundsStarted + 1) maxPositions)
    (hfresh : shop.identity proposal ∉ campaign.seen) :
    ∃ extra, extra ≠ [] ∧ (refine shop session clock strategy plan maxPositions candidates result
      campaign roundsRun).candidates = candidates ++ extra := by
  have hallowed : campaign.allowNextRound = (true, campaign) := by
    have hpair : campaign.allowNextRound = (true, campaign.allowNextRound.2) := by rw [← h.allowed]
    rw [hpair, (ResearchCampaign.allowNextRound_true hpair).1]
  obtain ⟨-, -, hroom⟩ := ResearchCampaign.allowNextRound_true hallowed
  let proposed := generateSelfImprovementCandidates shop strategy plan (candidates.length + 1)
    (campaign.roundsStarted + 1) maxPositions
  have hadmitted : ∃ identity ∈ (campaign.admitCandidateIdentities (proposed.map shop.identity)).1,
      identity ∈ proposed.map shop.identity := by
    unfold ResearchCampaign.admitCandidateIdentities
    rw [hallowed]
    let scan : ResearchCampaign.Admission κ := ⟨[], campaign.seen, 0, false⟩
    have hsome : (ResearchCampaign.admitNew (campaign.budget.maxTotalCandidates -
        campaign.totalCandidateCount) scan (proposed.map shop.identity)).admitted ≠ [] :=
      ResearchCampaign.admit_ne_nil (Nat.sub_pos_of_lt hroom) (List.mem_map_of_mem hproposal) hfresh
    obtain ⟨identity, hidentity⟩ := List.exists_mem_of_ne_nil _ hsome
    exact ⟨identity, hidentity, (ResearchCampaign.mem_of_admitted hidentity).resolve_left List.not_mem_nil⟩
  obtain ⟨identity, hidentity, hmem⟩ := hadmitted
  obtain ⟨improved, himproved, rfl⟩ := List.mem_map.mp hmem
  have hne : (proposed.filter fun candidate => shop.identity candidate ∈
      (campaign.admitCandidateIdentities (proposed.map shop.identity)).1) ≠ [] :=
    List.ne_nil_of_mem (List.mem_filter.mpr ⟨himproved, decide_eq_true hidentity⟩)
  fun_cases refine shop session clock strategy plan maxPositions candidates result campaign
    roundsRun with
  | case1 =>
    rename_i hfloor
    exact absurd hfloor h.floor
  | case2 =>
    rename_i hfalse
    rw [hallowed] at hfalse
    cases hfalse
  | case3 =>
    rename_i hdeadline
    exact absurd hdeadline (ne_true_of_eq_false h.deadline)
  | case4 =>
    rename_i hfits
    exact absurd h.fits hfits
  | case5 =>
    rename_i hnil
    exact absurd hnil hne
  | case6 => exact ⟨_, hne, rfl⟩
  | case7 =>
    rename_i admission improved _ widened _ _ next progress
    have hgrows : ∃ extra, (refine shop session clock strategy plan maxPositions widened
        (if progress then next else result) (admission.2.recordRound progress)
        (campaign.roundsStarted + 1)).candidates = widened ++ extra :=
      (refine_candidates _ _ _ _).imp fun _ h => h.1
    obtain ⟨extra, hextra⟩ := hgrows
    refine ⟨improved ++ extra, ?_, hextra.trans (List.append_assoc _ _ _)⟩
    exact fun hnil => hne (List.append_eq_nil_iff.mp hnil).1

/-- After the first pass nothing is left to search for, or no room, or no time to search. -/
def Settles (session : Session F) (clock : Clock) (budget : ResearchCampaignBudget)
    (strategy : StrategySpec F) (candidates : List (CodeCandidate F)) : Prop :=
  ∀ first, runCandidateBacktest session candidates = .ok first →
    objectiveFloorReasons session (strategy.selectionMode = .automatic)
        (applySelectionCorrection session first candidates.length) = [] ∨
      budget.maxTotalCandidates ≤ candidates.length ∨ clock.pastDeadline 1 = true ∨
      clock.roundFits 1 = false

theorem allowNextRound_start {budget : ResearchCampaignBudget} {identities : List κ}
    (h : identities.Nodup) :
    (ResearchCampaign.start budget identities).allowNextRound.1 = true ↔
      identities.length < budget.maxTotalCandidates := by
  have hcount : (ResearchCampaign.start budget identities).totalCandidateCount = identities.length := by
    change identities.dedup.length + 0 = _
    rw [h.dedup, Nat.add_zero]
  have hrounds := budget.rounds_pos
  have hprogress := budget.no_progress_pos
  have hexhausted : (ResearchCampaign.start budget identities).exhausted =
      if budget.maxTotalCandidates ≤ identities.length then some .candidateBudgetExhausted else none := by
    unfold ResearchCampaign.exhausted
    rw [hcount]
    change (if budget.maxRounds ≤ 0 then some StopReason.roundBudgetExhausted
      else if budget.maxTotalCandidates ≤ identities.length then some .candidateBudgetExhausted
      else if budget.maxConsecutiveNoProgress ≤ 0 then some .noProgressBudgetExhausted
      else none) = _
    rw [if_neg (Nat.not_le_of_lt hrounds), if_neg (Nat.not_le_of_lt hprogress)]
  have hrunning : (ResearchCampaign.start budget identities).stopReason = none := rfl
  unfold ResearchCampaign.allowNextRound
  rw [hrunning, hexhausted]
  split_ifs with hfull
  · simpa using hfull
  · simpa using hfull

variable {budget : ResearchCampaignBudget} {generated : Loop3Result F} {P : CodeCandidate F → Prop}

/-- A run that settles evaluates what it was handed, and selects among it. -/
theorem backtestNode_settled (hP : RuleFact P)
    (hnodup : (generated.candidates.map shop.identity).Nodup)
    (h : Settles session clock budget strategy generated.candidates)
    (hall : ∀ c ∈ generated.candidates, P c) :
    (backtestNode shop session clock budget strategy maxPositions generated).candidates =
        generated.candidates ∧
      ∀ result, (backtestNode shop session clock budget strategy maxPositions generated).outcome =
        .ok result → ResultOf P result := by
  unfold backtestNode
  dsimp only
  cases hfirst : runCandidateBacktest session generated.candidates with
  | error error =>
    refine ⟨rfl, ?_⟩
    intro result hresult
    cases hresult
  | ok first =>
    have hnot : ¬ RoundStarts session clock strategy
        (applySelectionCorrection session first generated.candidates.length)
        (ResearchCampaign.start budget (generated.candidates.map shop.identity)) := by
      rintro ⟨hfloor, hallowed, hdeadline, hfits⟩
      rw [allowNextRound_start hnodup, List.length_map] at hallowed
      rcases h first hfirst with hnil | hfull | hlate | htight
      · exact hfloor hnil
      · exact absurd hallowed (Nat.not_lt_of_le hfull)
      · exact Bool.false_ne_true (hdeadline.symm.trans hlate)
      · exact Bool.false_ne_true (htight.symm.trans hfits)
    have hresult : ResultOf P (applySelectionCorrection session first generated.candidates.length) :=
      ResultOf.correct hP (runCandidateBacktest_resultOf hP hall hfirst) _
    refine ⟨(refine_settled hnot).1, ?_⟩
    intro result hok
    obtain ⟨final, hfinal, rfl⟩ := map_eq_ok.mp hok
    rw [(refine_settled hnot).2 final hfinal]
    exact ResultOf.correct hP hresult _

/-- A proposal of the loop: the strategy's own rule under parameters of no blueprint. -/
def Proposed (candidate : CodeCandidate F) : Prop :=
  ∃ ir parameters, candidate.representation = .structured ir parameters ∧ parameters.blueprintId = none

theorem proposed_of_mem {start iteration : ℕ} {candidate : CodeCandidate F}
    (h : candidate ∈ generateSelfImprovementCandidates shop strategy plan start iteration maxPositions) :
    Proposed candidate := by
  obtain ⟨⟨parameters, index⟩, hmem, rfl⟩ := List.mem_map.mp h
  have hgrid := mem_of_takeDistinct (List.fst_mem_of_mem_zipIdx hmem)
  obtain ⟨⟨profile, lookback, threshold⟩, -, hparameters⟩ := List.mem_map.mp hgrid
  obtain rfl : gridParameters strategy plan maxPositions profile lookback threshold = parameters :=
    hparameters
  exact ⟨_, _, rfl, rfl⟩

/-- What a run evaluates beyond what it was handed are proposals of its loop. -/
theorem backtestNode_candidates : ∃ extra,
    (backtestNode shop session clock budget strategy maxPositions generated).candidates =
        generated.candidates ++ extra ∧ ∀ c ∈ extra, Proposed c := by
  unfold backtestNode
  dsimp only
  cases runCandidateBacktest session generated.candidates with
  | error error => exact ⟨[], (List.append_nil _).symm, List.forall_mem_nil _⟩
  | ok first =>
    obtain ⟨extra, hextra, hall⟩ := refine_candidates generated.candidates
      (applySelectionCorrection session first generated.candidates.length)
      (ResearchCampaign.start budget (generated.candidates.map shop.identity)) 0
    refine ⟨extra, hextra, fun c hc => ?_⟩
    obtain ⟨start, iteration, hproposed⟩ := hall c hc
    exact proposed_of_mem hproposed

/-- A run that does not settle evaluates more, where its first round has something new to propose. -/
theorem backtestNode_grows (hnodup : (generated.candidates.map shop.identity).Nodup)
    (h : ¬ Settles session clock budget strategy generated.candidates)
    {proposal : CodeCandidate F} (hproposal : proposal ∈ generateSelfImprovementCandidates shop strategy
      generated.codePlan (generated.candidates.length + 1) 1 maxPositions)
    (hfresh : shop.identity proposal ∉ generated.candidates.map shop.identity) :
    ∃ extra, extra ≠ [] ∧
      (backtestNode shop session clock budget strategy maxPositions generated).candidates =
        generated.candidates ++ extra := by
  unfold Settles at h
  push Not at h
  obtain ⟨first, hfirst, hfloor, hroom, hdeadline, hfits⟩ := h
  have hstarts : RoundStarts session clock strategy
      (applySelectionCorrection session first generated.candidates.length)
      (ResearchCampaign.start budget (generated.candidates.map shop.identity)) := by
    refine ⟨hfloor, ?_, Bool.eq_false_of_not_eq_true hdeadline, Bool.eq_true_of_not_eq_false hfits⟩
    rw [allowNextRound_start hnodup, List.length_map]
    exact hroom
  have hgrows : ∃ extra, extra ≠ [] ∧ (refine shop session clock strategy generated.codePlan maxPositions
      generated.candidates (applySelectionCorrection session first generated.candidates.length)
      (ResearchCampaign.start budget (generated.candidates.map shop.identity)) 0).candidates =
        generated.candidates ++ extra :=
    refine_grows hstarts hproposal fun hseen => hfresh (List.mem_dedup.mp hseen)
  obtain ⟨extra, hne, hextra⟩ := hgrows
  refine ⟨extra, hne, ?_⟩
  unfold backtestNode
  dsimp only
  rw [hfirst]
  exact hextra

end Rounds

section Fresh
variable {F : Type} [NumPy F] [DecidableEq κ] {shop : Workshop F κ} {strategy : StrategySpec F}
  {plan : CodeGenerationPlan F} {start iteration maxPositions : ℕ}

/-- Whatever the grid tries early enough is proposed under its profile. -/
theorem exists_proposal (hdigests : DigestsTellApart shop) {entry : Profile × ℕ × F}
    (h : entry ∈ (parameterGrid strategy plan iteration).take maxSelfImprovementCandidates) :
    ∃ c ∈ generateSelfImprovementCandidates shop strategy plan start iteration maxPositions,
      ∃ ir parameters, c.representation = .structured ir parameters ∧
        parameters.profile = entry.1 ∧ parameters.blueprintId = none := by
  obtain ⟨profile, lookback, threshold⟩ := entry
  let grid := (parameterGrid strategy plan iteration).map fun entry =>
    gridParameters strategy plan maxPositions entry.1 entry.2.1 entry.2.2
  have hgrid : gridParameters strategy plan maxPositions profile lookback threshold ∈
      grid.take maxSelfImprovementCandidates := by
    rw [← List.map_take]
    exact List.mem_map.mpr ⟨_, h, rfl⟩
  have hcovers : shop.parameterIdentity _ ∈ ([] : List κ) ∨ _ := takeDistinct_covers hgrid
  rcases hcovers with hseen | ⟨parameters, hparameters, hsame⟩
  · cases hseen
  · have hplace : parameters ∈ ((takeDistinct shop.parameterIdentity maxSelfImprovementCandidates []
        grid).zipIdx start).map Prod.fst := by
      rw [List.zipIdx_map_fst]
      exact hparameters
    obtain ⟨⟨_, index⟩, hindex, rfl⟩ := List.mem_map.mp hplace
    obtain ⟨hprofile, hblueprint⟩ := hdigests.parameters _ _ hsame
    exact ⟨_, List.mem_map_of_mem hindex, _, _, rfl, hprofile, hblueprint⟩

/-- The loop always has something to propose. -/
theorem parameterGrid_ne (strategy : StrategySpec F) (plan : CodeGenerationPlan F) (iteration : ℕ)
    (h : refinementProfiles strategy plan ≠ []) : parameterGrid strategy plan iteration ≠ [] := by
  obtain ⟨profile, hprofile⟩ := List.exists_mem_of_ne_nil _ h
  obtain ⟨lookback, hlookback⟩ := List.exists_mem_of_ne_nil _ (refinedLookbacks_ne plan iteration)
  obtain ⟨threshold, hthreshold⟩ := List.exists_mem_of_ne_nil _ (refinedThresholds_ne plan iteration)
  refine List.ne_nil_of_mem (a := (profile, lookback, threshold)) (List.mem_append_right _ ?_)
  exact List.mem_flatMap.mpr ⟨profile, hprofile, List.mem_flatMap.mpr ⟨lookback, hlookback,
    List.mem_map.mpr ⟨threshold, hthreshold, rfl⟩⟩⟩

/-- A plan of no blueprint tries profiles of its own, the user's rule not among them. -/
theorem exists_otherProfile (strategy : StrategySpec F) :
    ∃ profile ∈ candidateProfiles (namedPlan strategy), profile ≠ .compiledConditions := by
  have hprofiles : (namedPlan strategy).candidateProfiles = [] := by
    unfold namedPlan
    dsimp only
    repeat' split
    all_goals rfl
  unfold candidateProfiles
  rw [namedPlan_unplanned, hprofiles]
  repeat' split
  all_goals first
    | contradiction
    | exact ⟨_, List.mem_cons_self, by decide⟩

/-- Where the user's rule compiles, the third place of the grid is another profile's. -/
theorem exists_otherEntry (hcompiles : compiles strategy.entryConditions)
    (h : ∃ profile ∈ candidateProfiles plan, profile ≠ .compiledConditions) :
    ∃ entry ∈ (parameterGrid strategy plan iteration).take maxSelfImprovementCandidates,
      entry.1 ≠ .compiledConditions := by
  obtain ⟨other, hother, hne⟩ := h
  have hprofiles : refinementProfiles strategy plan =
      .compiledConditions :: .compiledConditions :: candidateProfiles plan := if_pos hcompiles
  obtain ⟨first, hfirst⟩ : ∃ first, first ∈ (refinementProfiles strategy plan).filter
      fun profile => profile ≠ .compiledConditions :=
    ⟨other, List.mem_filter.mpr ⟨hprofiles ▸ List.mem_cons_of_mem _ (List.mem_cons_of_mem _ hother),
      decide_eq_true hne⟩⟩
  obtain ⟨profile, rest, hfilter⟩ := List.exists_cons_of_ne_nil (List.ne_nil_of_mem hfirst)
  have hprofile : profile ≠ .compiledConditions := by
    have hmem : profile ∈ (refinementProfiles strategy plan).filter
        fun profile => profile ≠ .compiledConditions := hfilter ▸ List.mem_cons_self
    exact of_decide_eq_true (List.mem_filter.mp hmem).2
  have hcompiled : Profile.compiledConditions ∈ refinementProfiles strategy plan :=
    hprofiles ▸ List.mem_cons_self
  refine ⟨(profile, cyclic (refinedLookbacks plan iteration) (refinedLookbacks_ne plan iteration)
      (0 + iteration), cyclic (refinedThresholds plan iteration) (refinedThresholds_ne plan iteration)
      (0 * 2 + iteration)), ?_, hprofile⟩
  unfold parameterGrid
  dsimp only
  rw [if_pos hcompiled, hfilter]
  exact List.mem_cons_of_mem _ (List.mem_cons_of_mem _ List.mem_cons_self)

end Fresh

section Sealed
variable {F : Type} [NumPy F] [DecidableEq κ]

/-- A candidate is evaluated under a rule of the spec. -/
def UnderSealedRule {catalog : BlueprintCatalog F} (spec : SealedSpec catalog)
    (candidate : CodeCandidate F) : Prop :=
  ∃ rule ∈ spec.rules, candidate.rule? = some rule

/-- The run evaluates every sealed rule once and nothing else, and only sealed rules are selected. -/
structure ExecutedAsSealed {catalog : BlueprintCatalog F} (spec : SealedSpec catalog)
    (run : CampaignRun F κ) : Prop where
  evaluated : (run.candidates.map CodeCandidate.rule?).Perm (spec.rules.map some)
  executable : ∀ c ∈ run.candidates, c.validationOk
  selected : ∀ result, run.outcome = .ok result → ResultOf (UnderSealedRule spec) result

/-- The candidates handed over are executable, and no round of proposals follows them. -/
structure KeptAsSealed (session : Session F) (clock : Clock) (budget : ResearchCampaignBudget)
    (strategy : StrategySpec F) (candidates : List (CodeCandidate F)) : Prop where
  executable : ∀ c ∈ candidates, c.validationOk
  settles : Settles session clock budget strategy candidates

theorem ruleFact_underSealedRule {catalog : BlueprintCatalog F} (spec : SealedSpec catalog) :
    RuleFact (UnderSealedRule spec) where
  congr h := by
    rintro ⟨rule, hrule, hcandidate⟩
    refine ⟨rule, hrule, ?_⟩
    rw [CodeCandidate.rule?, h.representation]
    exact hcandidate
  structured := by
    rintro c ⟨rule, -, hcandidate⟩
    rw [isStructured, CodeCandidate.ir]
    cases hrepresentation : c.representation with
    | structured ir parameters => rfl
    | pythonFallback code => rw [CodeCandidate.rule?, hrepresentation] at hcandidate; cases hcandidate

variable {shop : Workshop F κ} {session : Session F} {clock : Clock} {budget : ResearchCampaignBudget}
  {strategy : StrategySpec F} {nodePositions : ℕ}

/-- A run over candidates of the sealed rules, one each, keeps to them exactly when it settles; for
that, what the first round can propose has to be new. -/
theorem executedAsSealed_iff {spec : SealedSpec shop.catalog} {generated : Loop3Result F}
    (hrules : generated.candidates.map CodeCandidate.rule? = spec.rules.map some)
    (hnodup : (generated.candidates.map shop.identity).Nodup)
    (hfresh : ∃ proposal ∈ generateSelfImprovementCandidates shop strategy generated.codePlan
      (generated.candidates.length + 1) 1 nodePositions,
      shop.identity proposal ∉ generated.candidates.map shop.identity) :
    ExecutedAsSealed spec
        (backtestNode shop session clock budget strategy nodePositions generated) ↔
      KeptAsSealed session clock budget strategy generated.candidates := by
  have hunder : ∀ c ∈ generated.candidates, UnderSealedRule spec c := by
    intro c hc
    have hmem : c.rule? ∈ spec.rules.map some := hrules ▸ List.mem_map_of_mem hc
    obtain ⟨rule, hrule, hcandidate⟩ := List.mem_map.mp hmem
    exact ⟨rule, hrule, hcandidate.symm⟩
  constructor
  · rintro ⟨hevaluated, hexecutable, -⟩
    have hcandidates : ∃ extra, (backtestNode shop session clock budget strategy nodePositions
        generated).candidates = generated.candidates ++ extra ∧ ∀ c ∈ extra, Proposed c :=
      backtestNode_candidates
    obtain ⟨extra, hextra, -⟩ := hcandidates
    refine ⟨fun c hc => hexecutable c (hextra ▸ List.mem_append_left _ hc), ?_⟩
    by_contra hsettles
    obtain ⟨proposal, hproposal, hnew⟩ := hfresh
    obtain ⟨more, hne, hmore⟩ := backtestNode_grows hnodup hsettles hproposal hnew
    have hlength := hevaluated.length_eq
    rw [hmore, ← hrules, List.map_append, List.length_append, List.length_map, List.length_map] at hlength
    exact hne (List.length_eq_zero_iff.mp (by omega))
  · rintro ⟨hexecutable, hsettles⟩
    have hrun : (backtestNode shop session clock budget strategy nodePositions generated).candidates =
          generated.candidates ∧ _ :=
      backtestNode_settled (ruleFact_underSealedRule spec) hnodup hsettles hunder
    obtain ⟨hcandidates, hselected⟩ := hrun
    refine ⟨?_, ?_, hselected⟩
    · rw [hcandidates, hrules]
    · rw [hcandidates]
      exact hexecutable

/-- An exploration evaluates its formulas and no proposal, so it cannot have more than come through. -/
theorem length_le_of_executed {policy : ActiveExplorationPolicyV2 F} {spec : ExplorationExecutionSpecV2}
    {accepted : validateExplorationSpecAgainstPolicy shop.catalog spec policy = .ok ()}
    {generated : Loop3Result F}
    (h : ExecutedAsSealed (.exploration policy spec accepted)
      (backtestNode shop session clock budget strategy nodePositions generated)) :
    (spec.templates shop.catalog).length ≤ generated.candidates.length := by
  have hcandidates : ∃ extra, (backtestNode shop session clock budget strategy nodePositions
      generated).candidates = generated.candidates ++ extra ∧ ∀ c ∈ extra, Proposed c :=
    backtestNode_candidates
  obtain ⟨extra, hextra, hproposed⟩ := hcandidates
  have hperm := h.evaluated
  have hnil : extra = [] := by
    refine List.eq_nil_iff_forall_not_mem.mpr fun c hc => ?_
    obtain ⟨ir, parameters, hrepresentation, hnone⟩ := hproposed c hc
    have hmem := hperm.subset (List.mem_map_of_mem (hextra ▸ List.mem_append_right _ hc))
    obtain ⟨rule, hrule, hcandidate⟩ := List.mem_map.mp hmem
    obtain ⟨template, -, rfl⟩ := List.mem_map.mp hrule
    rw [CodeCandidate.rule?, hrepresentation] at hcandidate
    have hblueprint : some template.catalogId = parameters.blueprintId :=
      congrArg SealedRule.blueprintId (Option.some.inj hcandidate)
    rw [hnone] at hblueprint
    cases hblueprint
  have hlength := hperm.length_eq
  rw [hextra, hnil, List.append_nil, List.length_map, List.length_map] at hlength
  change _ = ((spec.templates shop.catalog).map StrategyBlueprintTemplate.rule).length at hlength
  rw [List.length_map] at hlength
  exact hlength.ge

end Sealed

section Main
variable {F : Type} [NumPy F] [NextFloat F] [DecidableEq κ]

/-- `_strategy_spec_from_execution_spec` -/
def SealedSpec.strategy {catalog : BlueprintCatalog F} (digest : String) :
    SealedSpec catalog → Except PyError (StrategySpec F)
  | .exploration policy spec _ => strategyOfExploration digest catalog policy spec
  | .research spec => pure (strategyOfResearch digest spec)

/-- A run of the two nodes on a sealed spec. -/
def sealedRun (shop : Workshop F κ) (session : Session F) (clock : Clock)
    (budget : ResearchCampaignBudget) (digest : String) (spec : SealedSpec shop.catalog)
    (codePositions nodePositions : ℕ) : Except PyError (CampaignRun F κ) := do
  let strategy ← spec.strategy digest
  analysisRun shop session clock budget strategy codePositions nodePositions

/-- When a sealed spec is executed as sealed: an exploration has to name three formulas, a researched
rule has to be supported throughout, and the search has to settle on the sealed candidates. -/
def RunsAsSealed (shop : Workshop F κ) (session : Session F) (clock : Clock)
    (budget : ResearchCampaignBudget) (digest : String) (codePositions : ℕ) :
    SealedSpec shop.catalog → Prop
  | .exploration policy spec _ => spec.candidates.length = generatedCandidates ∧
      ∃ strategy plan, strategyOfExploration digest shop.catalog policy spec = .ok strategy ∧
        automaticPlan shop strategy = .ok plan ∧
        KeptAsSealed session clock budget strategy ((spec.templates shop.catalog).map
          (templateCandidate shop strategy plan codePositions))
  | .research spec =>
      let strategy : StrategySpec F := strategyOfResearch digest spec
      unsupportedConditions strategy = [] ∧ compiles strategy.entryConditions ∧
        KeptAsSealed session clock budget strategy [researchCandidate shop strategy codePositions]

variable {shop : Workshop F κ} {session : Session F} {clock : Clock} {budget : ResearchCampaignBudget}
  {digest : String} {codePositions nodePositions : ℕ}

theorem sealedRun_eq_ok {spec : SealedSpec shop.catalog} {run : CampaignRun F κ} :
    sealedRun shop session clock budget digest spec codePositions nodePositions = .ok run ↔
      ∃ strategy generated, spec.strategy digest = .ok strategy ∧
        generateLoop3Candidates shop strategy codePositions = .ok generated ∧
        backtestNode shop session clock budget strategy nodePositions generated = run := by
  unfold sealedRun analysisRun
  rw [bind_eq_ok]
  constructor
  · rintro ⟨strategy, hstrategy, h⟩
    obtain ⟨generated, hgenerated, h⟩ := bind_eq_ok.mp h
    exact ⟨strategy, generated, hstrategy, hgenerated, Except.ok.inj h⟩
  · rintro ⟨strategy, generated, hstrategy, hgenerated, h⟩
    exact ⟨strategy, hstrategy, bind_eq_ok.mpr ⟨generated, hgenerated, congrArg Except.ok h⟩⟩

/-- The strategy and the plan of an accepted exploration, and what its generation hands over. -/
theorem exploration_setup (hdigests : DigestsTellApart shop) (policy : ActiveExplorationPolicyV2 F)
    (spec : ExplorationExecutionSpecV2)
    (accepted : validateExplorationSpecAgainstPolicy shop.catalog spec policy = .ok ())
    (digest : String) (codePositions : ℕ) :
    ∃ strategy plan, strategyOfExploration digest shop.catalog policy spec = .ok strategy ∧
      automaticPlan shop strategy = .ok plan ∧
      plan.generatedStrategies =
        (spec.templates shop.catalog).map (blueprintOf strategy.riskConstraints) ∧
      ∀ generated, generateLoop3Candidates shop strategy codePositions = .ok generated ↔
        generatedCandidates ≤ (spec.templates shop.catalog).length ∧
          generated = ⟨((spec.templates shop.catalog).take generatedCandidates).map
            (templateCandidate shop strategy plan codePositions), plan⟩ ∧
          generated.candidates.any CodeCandidate.validationOk := by
  have hnames := acceptedTemplates accepted
  have hstrategies : ∃ strategy, strategyOfExploration digest shop.catalog policy spec = .ok strategy ∧
      ExplorationStrategy spec strategy :=
    strategyOfExploration_ok hnames
  obtain ⟨strategy, hstrategy, hexploration⟩ := hstrategies
  have hne : spec.templates shop.catalog ≠ [] := by
    intro hnil
    have hlength := hnames.length_eq
    have htwo := spec.two_le
    rw [hnil, List.length_nil] at hlength
    omega
  obtain ⟨plan, hplan, hgenerated⟩ :=
    automaticPlan_ok (selectedTemplates_of_names hexploration hnames) hne
  exact ⟨strategy, plan, hstrategy, hplan, hgenerated, fun generated =>
    generated_exploration hdigests hexploration hnames hplan hgenerated⟩

/-- Fewer than three formulas are never executed. -/
theorem three_le_of_sealedRun (hdigests : DigestsTellApart shop) {policy : ActiveExplorationPolicyV2 F}
    {spec : ExplorationExecutionSpecV2}
    {accepted : validateExplorationSpecAgainstPolicy shop.catalog spec policy = .ok ()}
    {run : CampaignRun F κ} (h : sealedRun shop session clock budget digest
      (.exploration policy spec accepted) codePositions nodePositions = .ok run) :
    generatedCandidates ≤ spec.candidates.length := by
  obtain ⟨strategy, plan, hstrategy, -, -, hgenerates⟩ :=
    exploration_setup hdigests policy spec accepted digest codePositions
  obtain ⟨strategy', generated, hstrategy', hgenerate, -⟩ := sealedRun_eq_ok.mp h
  obtain rfl : strategy = strategy' := Except.ok.inj (hstrategy.symm.trans hstrategy')
  rw [(acceptedTemplates accepted).length_eq]
  exact ((hgenerates _).mp hgenerate).1

theorem exploration_executed_iff (hdigests : DigestsTellApart shop)
    (policy : ActiveExplorationPolicyV2 F) (spec : ExplorationExecutionSpecV2)
    (accepted : validateExplorationSpecAgainstPolicy shop.catalog spec policy = .ok ()) :
    (∃ run, sealedRun shop session clock budget digest (.exploration policy spec accepted)
        codePositions nodePositions = .ok run ∧
        ExecutedAsSealed (.exploration policy spec accepted) run) ↔
      RunsAsSealed shop session clock budget digest codePositions
        (.exploration policy spec accepted) := by
  have hnames := acceptedTemplates accepted
  have hlength := hnames.length_eq
  have hne : spec.templates shop.catalog ≠ [] := by
    intro hnil
    have htwo := spec.two_le
    rw [hnil, List.length_nil] at hlength
    omega
  obtain ⟨strategy, plan, hstrategy, hplan, hgenerated, hgenerates⟩ :=
    exploration_setup hdigests policy spec accepted digest codePositions
  have hkept : spec.candidates.length = generatedCandidates →
      (ExecutedAsSealed (.exploration policy spec accepted) (backtestNode shop session clock budget
          strategy nodePositions ⟨(spec.templates shop.catalog).map
            (templateCandidate shop strategy plan codePositions), plan⟩) ↔
        KeptAsSealed session clock budget strategy ((spec.templates shop.catalog).map
          (templateCandidate shop strategy plan codePositions))) := by
    intro hthree
    refine executedAsSealed_iff ?_ ?_ ?_
    · change _ = ((spec.templates shop.catalog).map StrategyBlueprintTemplate.rule).map some
      rw [List.map_map, List.map_map]
      exact List.map_congr_left fun _ _ => rfl
    · rw [List.map_map]
      exact nodup_of_catalogIds (nodup_catalogIds hnames) fun s t heq =>
        Option.some.inj (hdigests.candidates _ _ _ _ heq).2
    · have hprofiles : refinementProfiles strategy plan ≠ [] := by
        have hcandidates : candidateProfiles plan ≠ [] := by
          rw [candidateProfiles, hgenerated, if_pos]
          · simpa using hne
          · simpa using hne
        unfold refinementProfiles
        split
        · exact List.cons_ne_nil _ _
        · exact hcandidates
      obtain ⟨entry, rest, hgrid⟩ := List.exists_cons_of_ne_nil (parameterGrid_ne strategy plan 1 hprofiles)
      have hentry : entry ∈ (parameterGrid strategy plan 1).take maxSelfImprovementCandidates := by
        rw [hgrid]
        exact List.mem_cons_self
      obtain ⟨proposal, hproposal, ir, parameters, hrepresentation, -, hnone⟩ :=
        exists_proposal hdigests hentry
      refine ⟨proposal, hproposal, fun hmem => ?_⟩
      obtain ⟨c, hc, hsame⟩ := List.mem_map.mp hmem
      obtain ⟨template, -, rfl⟩ := List.mem_map.mp hc
      rw [Workshop.identity, Workshop.identity, hrepresentation] at hsame
      have hblueprint := (hdigests.candidates _ _ _ _ hsame).2
      rw [hnone] at hblueprint
      cases hblueprint
  constructor
  · rintro ⟨run, hrun, hexecuted⟩
    obtain ⟨strategy', generated, hstrategy', hgenerate, rfl⟩ := sealedRun_eq_ok.mp hrun
    obtain rfl : strategy = strategy' := Except.ok.inj (hstrategy.symm.trans hstrategy')
    obtain ⟨hthree, rfl, -⟩ := (hgenerates _).mp hgenerate
    have hmost := length_le_of_executed hexecuted
    rw [List.length_map, List.length_take] at hmost
    have hall : (spec.templates shop.catalog).take generatedCandidates = spec.templates shop.catalog :=
      List.take_of_length_le (by omega)
    rw [hall] at hexecuted
    have hcount : spec.candidates.length = generatedCandidates := by omega
    exact ⟨hcount, strategy, plan, hstrategy, hplan, (hkept hcount).mp hexecuted⟩
  · rintro ⟨hcount, strategy', plan', hstrategy', hplan', hkeeps⟩
    obtain rfl : strategy = strategy' := Except.ok.inj (hstrategy.symm.trans hstrategy')
    obtain rfl : plan = plan' := Except.ok.inj (hplan.symm.trans hplan')
    have hall : (spec.templates shop.catalog).take generatedCandidates = spec.templates shop.catalog :=
      List.take_of_length_le (by omega)
    refine ⟨_, sealedRun_eq_ok.mpr ⟨strategy, _, hstrategy, (hgenerates _).mpr ⟨by omega, rfl, ?_⟩, rfl⟩, ?_⟩
    · obtain ⟨template, htemplate⟩ := List.exists_mem_of_ne_nil _ hne
      rw [hall]
      have hcandidate : templateCandidate shop strategy plan codePositions template ∈
          (spec.templates shop.catalog).map (templateCandidate shop strategy plan codePositions) :=
        List.mem_map_of_mem htemplate
      exact List.any_eq_true.mpr ⟨_, hcandidate, hkeeps.executable _ hcandidate⟩
    · rw [hall]
      exact (hkept hcount).mpr hkeeps

theorem research_executed_iff (hdigests : DigestsTellApart shop)
    (spec : ResearchCandidateExecutionSpecV3 F) :
    (∃ run, sealedRun shop session clock budget digest (.research spec) codePositions nodePositions =
        .ok run ∧ ExecutedAsSealed (.research spec : SealedSpec shop.catalog) run) ↔
      RunsAsSealed shop session clock budget digest codePositions (.research spec) := by
  have hresearch := researchStrategy digest spec
  have hkept : compiles spec.candidate.entryConditions →
      (ExecutedAsSealed (.research spec : SealedSpec shop.catalog) (backtestNode shop session clock budget
          (strategyOfResearch digest spec) nodePositions
          ⟨[researchCandidate shop (strategyOfResearch digest spec) codePositions],
            namedPlan (strategyOfResearch digest spec)⟩) ↔
        KeptAsSealed session clock budget (strategyOfResearch digest spec)
          [researchCandidate shop (strategyOfResearch digest spec) codePositions]) := by
    intro hcompiles
    refine executedAsSealed_iff ?_ (List.nodup_singleton _) ?_
    · have htiming : sealedTiming (strategyOfResearch digest spec) = (spec.candidate.holdingDays,
          if spec.candidate.rebalanceIntervalDays.isSome then .scheduledRotation else .eventDriven) :=
        if_pos hresearch.researched
      have hrule : (researchCandidate shop (strategyOfResearch digest spec) codePositions).rule? =
          some { spec.candidate.rule with
            executionMode := (sealedTiming (strategyOfResearch digest spec)).2
            holdingDays := (sealedTiming (strategyOfResearch digest spec)).1 } := rfl
      rw [htiming] at hrule
      exact congrArg (fun rule => [rule]) hrule
    · have hother : ∃ entry ∈ (parameterGrid (strategyOfResearch digest spec)
          (namedPlan (strategyOfResearch digest spec)) 1).take maxSelfImprovementCandidates,
            entry.1 ≠ .compiledConditions :=
        exists_otherEntry hcompiles (exists_otherProfile (strategyOfResearch digest spec))
      obtain ⟨entry, hentry, hother⟩ := hother
      obtain ⟨proposal, hproposal, ir, parameters, hrepresentation, hprofile, -⟩ :=
        exists_proposal hdigests hentry
      refine ⟨proposal, hproposal, fun hmem => ?_⟩
      have hsame := List.mem_singleton.mp hmem
      rw [Workshop.identity, Workshop.identity, hrepresentation] at hsame
      have hcompiled := (hdigests.candidates _ _ _ _ hsame).1
      exact hother (hprofile.symm.trans hcompiled)
  constructor
  · rintro ⟨run, hrun, hexecuted⟩
    obtain ⟨strategy, generated, hstrategy, hgenerate, rfl⟩ := sealedRun_eq_ok.mp hrun
    obtain rfl : strategyOfResearch digest spec = strategy := Except.ok.inj hstrategy
    obtain ⟨hsupported, hcompiles, rfl, -⟩ := (generated_research hresearch).mp hgenerate
    exact ⟨hsupported, hcompiles, (hkept hcompiles).mp hexecuted⟩
  · rintro ⟨hsupported, hcompiles, hkeeps⟩
    refine ⟨_, sealedRun_eq_ok.mpr ⟨_, _, rfl, (generated_research hresearch).mpr
      ⟨hsupported, hcompiles, rfl, ?_⟩, rfl⟩, (hkept hcompiles).mpr hkeeps⟩
    exact List.any_eq_true.mpr ⟨_, List.mem_cons_self, hkeeps.executable _ List.mem_cons_self⟩

/-- The candidates a run evaluates, and every candidate it selects, are the sealed ones exactly when
the spec seals as many candidates as are generated and the search settles on them. -/
theorem sealedSpec_executed_iff (shop : Workshop F κ) (hdigests : DigestsTellApart shop)
    (session : Session F) (clock : Clock) (budget : ResearchCampaignBudget) (digest : String)
    (codePositions nodePositions : ℕ) (spec : SealedSpec shop.catalog) :
    (∃ run, sealedRun shop session clock budget digest spec codePositions nodePositions = .ok run ∧
        ExecutedAsSealed spec run) ↔
      RunsAsSealed shop session clock budget digest codePositions spec := by
  cases spec with
  | exploration policy spec accepted => exact exploration_executed_iff hdigests policy spec accepted
  | research spec => exact research_executed_iff hdigests spec

end Main

section Example

abbrev Float64 : Type := Flt Binary64

theorem highClose_left : "close" ≠ "" := by decide

theorem highClose_unranked : ∀ x ∈ (none : Option Float64), 0 < x ∧ x ≤ 1 := unranked

def highClose : DescribedCondition Float64 where
  left := "close"
  operator := .gt
  right := .number 1
  window := none
  aggregate := none
  scale := none
  consecutive := none
  universeRankPct := none
  left_ne := highClose_left
  right_shape := trivial
  window_pos := pos_of_none
  consecutive_pos := pos_of_none
  rank_pos := highClose_unranked
  description := none

def someDigest : String := String.ofList (List.replicate 64 'a')

theorem mem_toList_replicated {c : Char} {n : ℕ} (h : c ∈ (String.ofList (List.replicate n 'a')).toList) :
    c ∈ ['a', 'b', 'c', 'd', 'e', 'f'] := by
  rw [String.toList_ofList] at h
  rw [List.eq_of_mem_replicate h]
  exact List.mem_cons_self

theorem hexDigest_someDigest : HexDigest someDigest :=
  ⟨by decide +kernel, fun _ hc => .inr (mem_toList_replicated hc)⟩

def firstFormula : StrategyBlueprintTemplate Float64 where
  catalogId := "qb-v2-a"
  profile := .relativeMomentumRotation
  entryConditions := [highClose]
  exitConditions := []
  rankingMetric := "momentum_252"
  rankingDirection := .desc
  executionMode := .scheduledRotation
  executionSignature := someDigest
  requiredData := ["close"]
  lookback := 252
  threshold := 0
  id_pattern := ⟨['a'], nofun, by decide, by simp⟩
  signature_pattern := hexDigest_someDigest
  entry_ne := nofun

def secondFormula : StrategyBlueprintTemplate Float64 :=
  { firstFormula with
    catalogId := "qb-v2-b"
    profile := .trendLeaderRotation
    id_pattern := ⟨['b'], nofun, by decide, by simp⟩ }

/-- A catalogue of two formulas, and digests that keep what they are asked for. -/
def twoFormulaShop : Workshop Float64 (Profile × Option String) where
  catalog := ⟨"v2", someDigest, [firstFormula, secondFormula], by decide⟩
  selectStrategyBlueprints _ := []
  descriptorOk _ _ := true
  parameterIdentity parameters := (parameters.profile, parameters.blueprintId)
  candidateIdentity _ parameters := (parameters.profile, parameters.blueprintId)
  codeIdentity _ := (.adaptiveTrend, none)

theorem digestsTellApart_twoFormulaShop : DigestsTellApart twoFormulaShop where
  parameters _ _ h := ⟨congrArg Prod.fst h, congrArg Prod.snd h⟩
  candidates _ _ _ _ h := ⟨congrArg Prod.fst h, congrArg Prod.snd h⟩

def twoCandidatePolicy : ActiveExplorationPolicyV2 Float64 where
  policyVersion := "p1"
  policyHash := someDigest
  catalogVersion := "v2"
  catalogHash := someDigest
  candidateCount := 2
  maxPositions := 10
  rebalanceIntervalDays := 21
  stopLossPct := 1
  takeProfitPct := 1
  trailingStopPct := 1
  two_le := by decide
  le_ten := by decide
  positions_pos := by decide
  positions_le := by decide
  rebalance_bounds := by decide

/-- Both formulas of the catalogue, sealed. -/
def twoCandidateSpec : ExplorationExecutionSpecV2 where
  policyVersion := "p1"
  policyHash := someDigest
  catalogVersion := "v2"
  catalogHash := someDigest
  candidates :=
    [⟨firstFormula.catalogId, someDigest, firstFormula.id_pattern, hexDigest_someDigest⟩,
      ⟨secondFormula.catalogId, someDigest, secondFormula.id_pattern, hexDigest_someDigest⟩]
  two_le := by decide
  le_ten := by decide
  ids_unique := by decide

theorem twoCandidateSpec_accepted :
    validateExplorationSpecAgainstPolicy twoFormulaShop.catalog twoCandidateSpec twoCandidatePolicy =
      .ok () := by
  rfl

def defaultBudget : ResearchCampaignBudget := .fromEnvironment none none none

theorem sealedSpec_executed_iff_two :
    (∃ run, sealedRun twoFormulaShop silentSession freeClock defaultBudget someDigest
        (.exploration twoCandidatePolicy twoCandidateSpec twoCandidateSpec_accepted) 10 10 = .ok run ∧
        ExecutedAsSealed
          (.exploration twoCandidatePolicy twoCandidateSpec twoCandidateSpec_accepted) run) ↔
      RunsAsSealed twoFormulaShop silentSession freeClock defaultBudget someDigest 10
        (.exploration twoCandidatePolicy twoCandidateSpec twoCandidateSpec_accepted) :=
  sealedSpec_executed_iff twoFormulaShop digestsTellApart_twoFormulaShop silentSession freeClock
    defaultBudget someDigest 10 10
    (.exploration twoCandidatePolicy twoCandidateSpec twoCandidateSpec_accepted)

/-- Two sealed candidates are admitted, and nothing of them is executed. -/
theorem sealedSpec_notExecuted :
    ¬ ∀ (shop : Workshop Float64 (Profile × Option String)), DigestsTellApart shop →
      ∀ (session : Session Float64) (clock : Clock) (budget : ResearchCampaignBudget) (digest : String)
        (codePositions nodePositions : ℕ) (spec : SealedSpec shop.catalog),
        ∃ run, sealedRun shop session clock budget digest spec codePositions nodePositions = .ok run ∧
          ExecutedAsSealed spec run := by
  intro h
  obtain ⟨run, hrun, -⟩ := h twoFormulaShop digestsTellApart_twoFormulaShop silentSession freeClock
    defaultBudget someDigest 10 10
    (.exploration twoCandidatePolicy twoCandidateSpec twoCandidateSpec_accepted)
  exact absurd (three_le_of_sealedRun digestsTellApart_twoFormulaShop hrun) (by decide)

end Example

end QuantAgent.Campaign
