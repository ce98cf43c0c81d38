import QuantAgent.Campaign.Selection
import QuantAgent.Campaign.Budget

namespace QuantAgent.Campaign
open QuantAgent.Features
set_option autoImplicit true

/-- A check of `_benchmark_objective_reasons`. -/
inductive BenchmarkReason where
  | aggregateUnavailable
  | noPeriods
  | lockboxUnavailable
  | noLockboxPeriods
  | lossRate
  | excessUnavailable
  | excess
  | officialUnavailable
  | totalReturn
deriving DecidableEq, Repr

/-- A check of the acceptance floor that a result did not clear. -/
inductive FloorReason where
  | tradeCount
  | sharpeUnavailable
  | sharpe
  | drawdown
  | adjustedSharpe
  | noBenchmark
  | benchmark (proxy : Bool) (reason : BenchmarkReason)
deriving DecidableEq, Repr

/-- The wall clock at the start of a round: the request's deadline, and whether the projected
round fits the budget that is left. -/
structure Clock where
  pastDeadline : ℕ → Bool
  roundFits : ℕ → Bool

section Floor
variable {F : Type} [NumPy F]

/-- `_ready_aggregate_metrics` -/
def readyAggregate (result : CandidateBacktestResult F) : Option (BacktestMetrics F) :=
  match result.walkForward with
  | some walkForward => if walkForward.status = .ready then walkForward.aggregateMetrics else none
  | none => none

/-- `_floor_metrics`: the selected candidate's own, with what a ready aggregate measured. -/
def floorMetrics (result : CandidateBacktestResult F) (metrics : BacktestMetrics F) :
    BacktestMetrics F :=
  match readyAggregate result with
  | none => metrics
  | some aggregate =>
    { metrics with
      outSampleSharpe := aggregate.outSampleSharpe
      maxDrawdown := aggregate.maxDrawdown
      selectionAdjustedSharpe := aggregate.selectionAdjustedSharpe
      outSampleBenchmarkReturn :=
        aggregate.outSampleBenchmarkReturn.or metrics.outSampleBenchmarkReturn
      outSampleExcessReturn := aggregate.outSampleExcessReturn.or metrics.outSampleExcessReturn
      benchmarkPeriodCount := aggregate.benchmarkPeriodCount.or metrics.benchmarkPeriodCount
      outSampleBenchmarkPeriodCount :=
        aggregate.outSampleBenchmarkPeriodCount.or metrics.outSampleBenchmarkPeriodCount
      outSampleBenchmarkPeriodLossRate :=
        aggregate.outSampleBenchmarkPeriodLossRate.or metrics.outSampleBenchmarkPeriodLossRate }

def check (failed : Prop) [Decidable failed] (reason : α) : List α := if failed then [reason] else []

/-- `_benchmark_objective_reasons` -/
def benchmarkObjectiveReasons (metrics : BacktestMetrics F) (benchmarkReturn : Option F) :
    List BenchmarkReason :=
  let benchmark := benchmarkReturn.or do
    let selection ← metrics.inSampleBenchmarkReturn
    let lockbox ← metrics.outSampleBenchmarkReturn
    pure ((1 + selection) * (1 + lockbox) - 1)
  (match metrics.benchmarkPeriodCount with
    | none => [.aggregateUnavailable]
    | some count => check (count = 0) .noPeriods) ++
  (match metrics.outSampleBenchmarkPeriodCount with
    | none => [.lockboxUnavailable]
    | some 0 => [.noLockboxPeriods]
    | some _ =>
      match metrics.outSampleBenchmarkPeriodLossRate with
      | some rate => check (decimal 5 1 ≤ rate) .lossRate
      | none => []) ++
  (match metrics.outSampleExcessReturn with
    | none => [.excessUnavailable]
    | some excess => check (excess ≤ 0) .excess) ++
  (match benchmark with
    | none => [.officialUnavailable]
    | some benchmark => check (metrics.totalReturn ≤ benchmark) .totalReturn)

/-- `objective_floor_reasons`; a selected candidate always has metrics. -/
def objectiveFloorReasons (session : Session F) (automatic : Bool)
    (result : CandidateBacktestResult F) : List FloorReason :=
  match result.selected.metrics with
  | none => [.sharpeUnavailable]
  | some selected =>
    let metrics := floorMetrics result selected
    check (result.effectiveTradeCount < lit 5) .tradeCount ++
    (match metrics.outSampleSharpe with
      | none => [.sharpeUnavailable]
      | some sharpe => check (sharpe < 0) .sharpe) ++
    check (metrics.maxDrawdown < -decimal 5 1) .drawdown ++
    check ((readyAggregate result).isNone ∧ metrics.selectionAdjustedSharpe < 0) .adjustedSharpe ++
    (if automatic then
      match session.primaryBenchmark, session.auxiliaryReturn with
      | some primary, _ => (benchmarkObjectiveReasons metrics primary).map (.benchmark false)
      | none, some proxy => (benchmarkObjectiveReasons metrics (some proxy)).map (.benchmark true)
      | none, none => [.noBenchmark]
    else [])

/-- `_apply_selection_correction`: the same selection, with the width of the search on it. -/
def applySelectionCorrection (session : Session F) (result : CandidateBacktestResult F)
    (candidateCount : ℕ) : CandidateBacktestResult F :=
  match result.selected.metrics with
  | none => result
  | some metrics =>
    let observed := fun (walkForward : Option (WalkForwardPolicyResult F)) =>
      (walkForward.map WalkForwardPolicyResult.uniqueEvaluationSessionCount).getD 0
    let (base, observations) :=
      match (readyAggregate result).bind BacktestMetrics.outSampleSharpe with
      | some sharpe => (sharpe, max 1 (observed result.walkForward))
      | none => (metrics.inSampleSharpe, max 1 metrics.inSampleObservations)
    let corrected := fun (m : BacktestMetrics F) =>
      { m with
        candidatesEvaluated := max 1 candidateCount
        selectionAdjustedSharpe :=
          PyFloat.round 6 (base - session.expectedMaxSharpe candidateCount observations) }
    { result with
      selected := { result.selected with metrics := some (corrected metrics) }
      walkForward :=
        match readyAggregate result with
        | some aggregate => result.walkForward.map fun walkForward =>
            { walkForward with aggregateMetrics := some (corrected aggregate) }
        | none => result.walkForward }

/-- `_selected_objective_score`; nothing stands for minus infinity. -/
def selectedObjectiveScore (result : CandidateBacktestResult F) : Option F :=
  result.objectiveScores.get? result.selected.candidateId

/-- `next_score > previous_score` -/
def scoreGreater (next previous : Option F) : Bool :=
  match next, previous with
  | some next, some previous => decide (previous < next)
  | some next, none => next == next
  | none, _ => false

end Floor

/-- A run of the refinement loop: every candidate it handed to an evaluation, and how it ended. -/
structure CampaignRun (F κ : Type) [PyFloat F] where
  candidates : List (CodeCandidate F)
  roundsRun : ℕ
  campaign : ResearchCampaign κ
  outcome : Except NodeError (CandidateBacktestResult F)

namespace ResearchCampaign
variable {κ : Type} [DecidableEq κ]

theorem allowNextRound_true {campaign campaign' : ResearchCampaign κ}
    (h : campaign.allowNextRound = (true, campaign')) :
    campaign' = campaign ∧ campaign.roundsStarted < campaign.budget.maxRounds ∧
      campaign.totalCandidateCount < campaign.budget.maxTotalCandidates := by
  unfold allowNextRound at h
  split at h
  · cases h
  · split at h
    · cases h
    · rename_i hexhausted
      unfold exhausted at hexhausted
      cases h
      split at hexhausted
      · cases hexhausted
      · rename_i hrounds
        split at hexhausted
        · cases hexhausted
        · rename_i hcandidates
          exact ⟨rfl, Nat.lt_of_not_le hrounds, Nat.lt_of_not_le hcandidates⟩

/-- Admission touches neither the budget nor the rounds. -/
theorem admitCandidateIdentities_frame (campaign : ResearchCampaign κ) (identities : List κ) :
    (campaign.admitCandidateIdentities identities).2.budget = campaign.budget ∧
      (campaign.admitCandidateIdentities identities).2.roundsStarted = campaign.roundsStarted := by
  unfold admitCandidateIdentities
  split
  · rename_i campaign' h
    unfold allowNextRound at h
    split at h
    · cases h
      exact ⟨rfl, rfl⟩
    · split at h
      · cases h
        exact ⟨rfl, rfl⟩
      · cases h
  · rename_i campaign' h
    obtain ⟨rfl, -, -⟩ := allowNextRound_true h
    exact ⟨rfl, rfl⟩

end ResearchCampaign

section Node
variable {F : Type} [NumPy F] [DecidableEq κ]

/-- The refinement loop of `backtest_node`. Each round evaluates what it adds beside all that was
there; the best result so far is kept unless the round clears the floor or scores better. -/
def refine (shop : Workshop F κ) (session : Session F) (clock : Clock) (strategy : StrategySpec F)
    (plan : CodeGenerationPlan F) (maxPositions : ℕ) (candidates : List (CodeCandidate F))
    (result : CandidateBacktestResult F) (campaign : ResearchCampaign κ) (roundsRun : ℕ) :
    CampaignRun F κ :=
  let automatic := strategy.selectionMode = .automatic
  if objectiveFloorReasons session automatic result = [] then
    ⟨candidates, roundsRun, campaign.stop .objectiveTargetReached true, .ok result⟩
  else
    match h : campaign.allowNextRound with
    | (false, campaign') => ⟨candidates, roundsRun, campaign', .ok result⟩
    | (true, _) =>
      let iteration := campaign.roundsStarted + 1
      if clock.pastDeadline iteration then ⟨candidates, roundsRun, campaign, .error .deadlineExceeded⟩
      else if ¬ clock.roundFits iteration then
        ⟨candidates, roundsRun, campaign.stop .wallBudgetInsufficient false, .ok result⟩
      else
        let proposed := generateSelfImprovementCandidates shop strategy plan (candidates.length + 1)
          iteration maxPositions
        let admission := campaign.admitCandidateIdentities (proposed.map shop.identity)
        let improved := proposed.filter fun candidate => shop.identity candidate ∈ admission.1
        if improved = [] then
          ⟨candidates, roundsRun, admission.2.stop .noDistinctCandidates false, .ok result⟩
        else
          let candidates := candidates ++ improved
          match runCandidateBacktest session candidates with
          | .error error => ⟨candidates, roundsRun, admission.2, .error error⟩
          | .ok next =>
            let next := applySelectionCorrection session next candidates.length
            let progress := objectiveFloorReasons session automatic next = [] ∨
              scoreGreater (selectedObjectiveScore next) (selectedObjectiveScore result)
            refine shop session clock strategy plan maxPositions candidates
              (if progress then next else result) (admission.2.recordRound progress) iteration
  termination_by campaign.budget.maxRounds - campaign.roundsStarted
  decreasing_by
    obtain ⟨-, hrounds, -⟩ := ResearchCampaign.allowNextRound_true h
    have hframe := campaign.admitCandidateIdentities_frame (proposed.map shop.identity)
    change admission.2.budget.maxRounds - (admission.2.roundsStarted + 1) < _
    rw [hframe.1, hframe.2]
    omega

/-- `backtest_node` on the candidates and the plan of `backtest_code_node`. -/
def backtestNode (shop : Workshop F κ) (session : Session F) (clock : Clock)
    (budget : ResearchCampaignBudget) (strategy : StrategySpec F) (maxPositions : ℕ)
    (generated : Loop3Result F) : CampaignRun F κ :=
  let campaign := ResearchCampaign.start budget (generated.candidates.map shop.identity)
  match runCandidateBacktest session generated.candidates with
  | .error error => ⟨generated.candidates, 0, campaign, .error error⟩
  | .ok result =>
    let result := applySelectionCorrection session result generated.candidates.length
    let run := refine shop session clock strategy generated.codePlan maxPositions
      generated.candidates result campaign 0
    { run with
      outcome := run.outcome.map fun result =>
        applySelectionCorrection session result run.candidates.length }

end Node

end QuantAgent.Campaign
