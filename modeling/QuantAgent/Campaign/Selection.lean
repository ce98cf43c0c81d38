import QuantAgent.Campaign.Candidates
import QuantAgent.Lib.Causal

namespace QuantAgent.Campaign
open QuantAgent.Features
set_option autoImplicit true

/-- How a run of the node ends without a result. -/
inductive NodeError where
  | python (error : PyError)
  | moduleNotFound
  | deadlineExceeded
deriving DecidableEq

inductive MetricsMode where
  | selection
  | full
deriving DecidableEq

/-- `_WalkForwardFold`, without the index. -/
structure WalkForwardFold where
  warmupSessions : List String
  trainSessions : List String
  validationSessions : List String
  evaluationSessions : List String
deriving DecidableEq

/-- What one full-window engine run of a candidate yields. -/
structure Measurement (F : Type) where
  metrics : BacktestMetrics F
  objectiveScore : F
  selectionBuyCount : F
  effectiveTradeCount : F
  /-- The sessions of the public equity curve. -/
  sessions : List String

/-- Why an engine run of a candidate yields nothing. -/
inductive EngineFailure where
  | failed
  | quantstatsMissing
deriving DecidableEq

/-- One engine run on the sessions of a fold. -/
structure FoldRun (F : Type) where
  /-- The equity points: session and daily return. -/
  points : List (String × F)
  /-- The sessions of the executed buys. -/
  buys : List String
  metrics : BacktestMetrics F

/-- `_CandidateBacktestSession` on fixed price rows: the fold geometry of the rows, and the engine
runs behind the memo, which a candidate's rule determines. -/
structure Session (F : Type) [PyFloat F] where
  walkForwardReady : Bool
  folds : List WalkForwardFold
  minValidFolds : ℕ
  minUniqueEvaluationMonths : ℕ
  minUniqueEvaluationSessions : ℕ
  /-- The sessions in front of the split. -/
  selectionDays : ℕ
  run : MetricsMode → CodeCandidate F → Except EngineFailure (Measurement F)
  /-- `_fold_engine`, on the sessions it sees and those it may trade on. -/
  foldEngine : List String → List String → CodeCandidate F → Except NodeError (FoldRun F)
  /-- `_walk_forward_aggregate_metrics` on the returns of the claimed sessions. -/
  aggregateMetrics : List (String × F) → BacktestMetrics F
  /-- `_expected_max_sharpe` -/
  expectedMaxSharpe : ℕ → ℕ → F
  /-- The official benchmark, if it is available, with its return if that is a number. -/
  primaryBenchmark : Option (Option F)
  auxiliaryReturn : Option F

/-- `max(xs, key=key)` under the order of the keys: the first of the largest. -/
def pyMaxBy (less : α → α → Bool) : List α → Option α
  | [] => none
  | x :: xs => some (xs.foldl (fun best y => if less best y then y else best) x)

theorem pyMaxBy_mem {less : α → α → Bool} {xs : List α} (h : pyMaxBy less xs = some x) : x ∈ xs := by
  have hfold : ∀ (xs : List α) (best : α),
      xs.foldl (fun best y => if less best y then y else best) best ∈ best :: xs := by
    intro xs
    induction xs with
    | nil => exact fun _ => List.mem_cons_self
    | cons y xs ih =>
      intro best
      rw [List.foldl_cons]
      rcases List.mem_cons.mp (ih (if less best y then y else best)) with h | h
      · rw [h]
        split
        · exact List.mem_cons_of_mem _ List.mem_cons_self
        · exact List.mem_cons_self
      · exact List.mem_cons_of_mem _ (List.mem_cons_of_mem _ h)
  cases xs with
  | nil => cases h
  | cons y xs =>
    cases h
    exact hfold xs y

theorem pyMaxBy_isSome {less : α → α → Bool} {xs : List α} (h : xs ≠ []) :
    (pyMaxBy less xs).isSome := by
  cases xs with
  | nil => exact absurd rfl h
  | cons x xs => rfl

section Selection
variable {F : Type} [NumPy F]

/-- The order of tuples of floats. -/
def tupleLess : List F → List F → Bool
  | x :: xs, y :: ys => if x == y then tupleLess xs ys else decide (x < y)
  | _, _ => false

/-- `_candidate_rank`; a candidate without metrics is not ranked. -/
def rankOf (metrics : BacktestMetrics F) : List F :=
  [metrics.inSampleSharpe, metrics.inSampleReturn, metrics.inSampleMaxDrawdown]

def candidateRank (candidate : CodeCandidate F) : List F :=
  match candidate.metrics with
  | some metrics => rankOf metrics
  | none => []

/-- The order of `(score or -inf, *rank)`. -/
def scoreLess (score : CodeCandidate F → Option F) (c d : CodeCandidate F) : Bool :=
  match score c, score d with
  | some x, some y => tupleLess (x :: candidateRank c) (y :: candidateRank d)
  | none, some y => y == y
  | some _, none => false
  | none, none => tupleLess (candidateRank c) (candidateRank d)

/-- `own or candidates`, under any test. -/
def preferred (p : α → Bool) (xs : List α) : List α := if xs.filter p = [] then xs else xs.filter p

theorem preferred_subset {p : α → Bool} {xs : List α} (h : x ∈ preferred p xs) : x ∈ xs := by
  unfold preferred at h
  split at h
  · exact h
  · exact List.mem_of_mem_filter h

theorem preferred_ne {p : α → Bool} {xs : List α} (h : xs ≠ []) : preferred p xs ≠ [] := by
  unfold preferred
  split
  · exact h
  · rename_i hne
    exact hne

/-- Where one passes the test, only those that pass are preferred. -/
theorem preferred_holds {p : α → Bool} {xs : List α} (hy : y ∈ xs) (hp : p y) (h : x ∈ preferred p xs) :
    p x := by
  have hne : xs.filter p ≠ [] := List.ne_nil_of_mem (List.mem_filter.mpr ⟨hy, hp⟩)
  unfold preferred at h
  rw [if_neg hne] at h
  exact (List.mem_filter.mp h).2

/-- What `session.evaluate` returns of one candidate. -/
structure CandidateEvaluation (F : Type) [PyFloat F] where
  candidate : CodeCandidate F
  measurement : Option (Measurement F)

/-- `_evaluate_candidate_task`, rebound to the candidate it was asked for. -/
def evaluateCandidate (session : Session F) (mode : MetricsMode) (candidate : CodeCandidate F) :
    Except NodeError (CandidateEvaluation F) :=
  if candidate.validationOk then
    match session.run mode candidate with
    | .ok measurement =>
      let metrics := if session.walkForwardReady then measurement.metrics else measurement.metrics.masked
      pure ⟨{ candidate with metrics := some metrics }, some measurement⟩
    | .error .failed => pure ⟨{ candidate with validationOk := false }, none⟩
    | .error .quantstatsMissing => throw .moduleNotFound
  else pure ⟨candidate, none⟩

/-- The dictionaries of a single split: the measurements by the id of their candidate. -/
def measurements (evaluations : List (CandidateEvaluation F)) : Dict String (Measurement F) :=
  evaluations.foldl (fun d evaluation =>
    match evaluation.measurement with
    | some measurement => d.insert evaluation.candidate.candidateId measurement
    | none => d) .empty

/-- `_annual_turnover` -/
def annualTurnover (session : Session F) (measurement : Option (Measurement F)) : F :=
  match measurement with
  | some measurement => measurement.selectionBuyCount * lit 252 / lit session.selectionDays
  | none => 0

/-- Whether `_within_turnover_cap` keeps a candidate. -/
def withinTurnoverCap (session : Session F) (measured : Dict String (Measurement F))
    (candidate : CodeCandidate F) : Bool :=
  decide (annualTurnover session (measured.get? candidate.candidateId) ≤ lit 24)

/-- What the walk-forward run records of one fold it claimed. -/
structure WalkForwardFoldSelection (F : Type) [PyFloat F] where
  foldIndex : ℕ
  fold : WalkForwardFold
  /-- The candidate the fold selected, with the metrics it was selected on. -/
  candidate : CodeCandidate F
  /-- The candidate whose payload the fold's engine ran under the selected id. -/
  trader : CodeCandidate F
  evaluationSessions : List String
  returns : Dict String F
  executedBuys : ℕ

inductive WalkForwardStatus where
  | ready
  | insufficient
  | unsafeCandidate
deriving DecidableEq, Repr

/-- `WalkForwardPolicyResult` -/
structure WalkForwardPolicyResult (F : Type) [PyFloat F] where
  status : WalkForwardStatus
  selections : List (WalkForwardFoldSelection F)
  uniqueEvaluationSessionCount : ℕ
  /-- The published returns, by session; none unless the run is ready. -/
  dailyReturns : List (String × F)
  aggregateMetrics : Option (BacktestMetrics F)

/-- `CandidateBacktestResult`, as the loop and the report read it. -/
structure CandidateBacktestResult (F : Type) [PyFloat F] where
  candidates : List (CodeCandidate F)
  selected : CodeCandidate F
  objectiveScores : Dict String F
  effectiveTradeCount : F
  /-- The sessions of the published equity curve of a single split. -/
  equitySessions : List String
  walkForward : Option (WalkForwardPolicyResult F)

/-- The candidates a single split may select: the user's own rule first, then the turnover cap. -/
def selectable (session : Session F) (measured : Dict String (Measurement F))
    (valid : List (CodeCandidate F)) : List (CodeCandidate F) :=
  preferred (withinTurnoverCap session measured) (preferred CodeCandidate.isUserRule valid)

/-- The candidates with metrics to select from. -/
def validCandidates (evaluations : List (CandidateEvaluation F)) : List (CodeCandidate F) :=
  (evaluations.map CandidateEvaluation.candidate).filter fun candidate =>
    candidate.validationOk && candidate.metrics.isSome

/-- `run_candidate_backtest` on a single split. -/
def runSingleSplit (session : Session F) (candidates : List (CodeCandidate F)) :
    Except NodeError (CandidateBacktestResult F) := do
  let evaluations ← candidates.mapM (evaluateCandidate session .selection)
  let measured := measurements evaluations
  let score := fun (candidate : CodeCandidate F) =>
    (measured.get? candidate.candidateId).map Measurement.objectiveScore
  match pyMaxBy (scoreLess score) (selectable session measured (validCandidates evaluations)) with
  | none => throw (.python (.valueError
      "at least one candidate must pass validation and engine backtest"))
  | some selected =>
    let detailed ← evaluateCandidate session .full selected
    let final := match detailed.measurement with
      | some _ => detailed.candidate
      | none => selected
    let kept := match detailed.measurement with
      | some measurement => measured.insert selected.candidateId measurement
      | none => measured
    match kept.get? final.candidateId with
    | none => throw (.python (.keyError final.candidateId))
    | some measurement =>
      pure
        { candidates := (evaluations.map CandidateEvaluation.candidate).map fun candidate =>
            if candidate.candidateId = final.candidateId then final else candidate
          selected := final
          objectiveScores := kept.mapVal fun _ measurement => measurement.objectiveScore
          effectiveTradeCount := measurement.effectiveTradeCount
          equitySessions := measurement.sessions
          walkForward := none }

/-- The payload a fold runs under an id: the last candidate that carries it. -/
def payloadOf (tradable : List (CodeCandidate F)) (candidate : CodeCandidate F) : CodeCandidate F :=
  ((Dict.index CodeCandidate.candidateId tradable).get? candidate.candidateId).getD candidate

/-- `_fold_engine_outcome` of a selection pass: warmup is seen but not traded on. -/
def selectionOutcome (session : Session F) (fold : WalkForwardFold) (candidate : CodeCandidate F) :
    Except NodeError (Option (BacktestMetrics F)) := do
  let run ← session.foldEngine (fold.warmupSessions ++ fold.trainSessions ++ fold.validationSessions)
    (fold.trainSessions ++ fold.validationSessions) candidate
  pure (if run.points = [] then none else some run.metrics)

/-- What an evaluation pass yields: the returns of its targets, and the buys among them. -/
structure FoldEvaluation (F : Type) where
  returns : Dict String F
  executedBuys : ℕ

/-- `_complete_target_returns`: the returns of the targets, where no target is missing. -/
def completeTargetReturns (points : List (String × F)) (targets : List String) :
    Option (Dict String F) :=
  let returns := (points.filter fun point => point.1 ∈ targets).foldl
    (fun d point => d.insert point.1 point.2) (Dict.empty : Dict String F)
  if ∀ target ∈ targets, target ∈ returns then some returns else none

/-- `_fold_engine_outcome` of an evaluation pass: one bridge session in front of the targets. -/
def evaluationOutcome (session : Session F) (fold : WalkForwardFold) (targets : List String)
    (candidate : CodeCandidate F) : Except NodeError (Option (FoldEvaluation F)) := do
  let run ← session.foldEngine (lastN 1 fold.validationSessions ++ targets) targets candidate
  pure ((completeTargetReturns run.points targets).map fun returns =>
    ⟨returns, (run.buys.filter fun date => date ∈ targets).length⟩)

/-- The candidates of a fold with metrics of its selection pass. -/
def eligibleInFold (session : Session F) (fold : WalkForwardFold)
    (tradable : List (CodeCandidate F)) : Except NodeError (List (CodeCandidate F)) := do
  let outcomes ← tradable.mapM fun proposed =>
    selectionOutcome session fold (payloadOf tradable proposed)
  pure ((tradable.zip outcomes).filterMap fun (proposed, metrics) =>
    metrics.map fun metrics => { proposed with metrics := some metrics })

/-- The candidate a fold selects. -/
def selectInFold (eligible : List (CodeCandidate F)) : Option (CodeCandidate F) :=
  pyMaxBy (fun c d => tupleLess (candidateRank c) (candidateRank d))
    (preferred CodeCandidate.isUserRule eligible)

/-- One fold: nothing where no candidate is eligible, no target is unclaimed, or the selected
candidate's evaluation does not cover the targets. -/
def runFold (session : Session F) (tradable : List (CodeCandidate F)) (claimed : List String)
    (fold : WalkForwardFold) (index : ℕ) : Except NodeError (Option (WalkForwardFoldSelection F)) := do
  let eligible ← eligibleInFold session fold tradable
  match selectInFold eligible with
  | none => pure none
  | some candidate =>
    let targets := fold.evaluationSessions.filter fun session => session ∉ claimed
    if targets = [] then pure none
    else do
      let outcomes ← tradable.mapM fun proposed =>
        evaluationOutcome session fold targets (payloadOf tradable proposed)
      let results := (tradable.zip outcomes).filterMap fun (proposed, outcome) =>
        outcome.map fun outcome => (proposed.candidateId, outcome)
      match (Dict.index Prod.fst results).get? candidate.candidateId with
      | none => pure none
      | some (_, evaluation) =>
        pure (some ⟨index, fold, candidate, payloadOf tradable candidate, targets,
          evaluation.returns, evaluation.executedBuys⟩)

/-- The folds in order; each claims the sessions the ones before it left. -/
def runFolds (session : Session F) (tradable : List (CodeCandidate F)) :
    List (WalkForwardFold × ℕ) → List (WalkForwardFoldSelection F) →
      Except NodeError (List (WalkForwardFoldSelection F))
  | [], selections => pure selections
  | (fold, index) :: folds, selections => do
    let claimed := selections.flatMap WalkForwardFoldSelection.evaluationSessions
    match ← runFold session tradable claimed fold index with
    | some selection => runFolds session tradable folds (selections ++ [selection])
    | none => runFolds session tradable folds selections

/-- The returns of the claimed sessions, sorted by session. -/
def returnsBySession (selections : List (WalkForwardFoldSelection F)) : Dict String F :=
  (selections.flatMap fun selection => selection.returns.entries).foldl
    (fun d entry => d.insert entry.1 entry.2) .empty

/-- Whether the claimed folds are enough to publish. -/
def walkForwardComplete (session : Session F) (selections : List (WalkForwardFoldSelection F)) : Bool :=
  let returns := returnsBySession selections
  decide (session.minValidFolds ≤ selections.length) &&
    decide (session.minUniqueEvaluationMonths ≤
      (returns.keys.map fun date => String.ofList (date.toList.take 7)).dedup.length) &&
    decide (session.minUniqueEvaluationSessions ≤ returns.size) &&
    decide (returns.size =
      (selections.flatMap WalkForwardFoldSelection.evaluationSessions).dedup.length)

/-- `_run_walk_forward_candidate_backtest` on structured candidates. -/
def runWalkForward (session : Session F) (candidates : List (CodeCandidate F)) :
    Except NodeError (CandidateBacktestResult F) := do
  let tradable := candidates.filter CodeCandidate.validationOk
  let selections ← runFolds session tradable session.folds.zipIdx []
  match selections.getLast? with
  | none => throw (.python (.valueError "walk-forward produced no complete evaluation fold"))
  | some last =>
    let returns := returnsBySession selections
    let ready := walkForwardComplete session selections
    let published := if ready then pySorted (fun a b => decide (a.1 < b.1)) returns.entries else []
    pure
      { candidates := candidates
        selected := last.candidate
        objectiveScores := .empty
        effectiveTradeCount := lit (selections.map WalkForwardFoldSelection.executedBuys).sum
        equitySessions := published.map Prod.fst
        walkForward := some
          { status := if ready then .ready else .insufficient
            selections := selections
            uniqueEvaluationSessionCount := published.length
            dailyReturns := published
            aggregateMetrics := if ready then some (session.aggregateMetrics published) else none } }

def isStructured (candidate : CodeCandidate F) : Bool := candidate.ir.isSome

/-- The result of Python candidates on rows that could be walked forward: nothing out of sample. -/
def maskUnsafe (result : CandidateBacktestResult F) : CandidateBacktestResult F :=
  { result with
    selected := { result.selected with metrics := result.selected.metrics.map BacktestMetrics.masked }
    walkForward := some
      { status := .unsafeCandidate
        selections := []
        uniqueEvaluationSessionCount := 0
        dailyReturns := []
        aggregateMetrics := none } }

/-- `run_candidate_backtest` -/
def runCandidateBacktest (session : Session F) (candidates : List (CodeCandidate F)) :
    Except NodeError (CandidateBacktestResult F) :=
  if candidates = [] then throw (.python (.valueError "at least one candidate is required"))
  else if session.walkForwardReady then
    if candidates.all isStructured then runWalkForward session candidates
    else maskUnsafe <$> runSingleSplit session candidates
  else runSingleSplit session candidates

end Selection

end QuantAgent.Campaign
