import QuantAgent.Campaign.Refinement
import QuantAgent.Lib.PyExcept

namespace QuantAgent.Campaign
open QuantAgent.Features
set_option autoImplicit true

section
variable {F : Type} [NumPy F] {session : Session F}

theorem evaluateCandidate_sameRule {mode : MetricsMode} {candidate : CodeCandidate F}
    {evaluation : CandidateEvaluation F}
    (h : evaluateCandidate session mode candidate = .ok evaluation) :
    evaluation.candidate.SameRule candidate := by
  unfold evaluateCandidate at h
  split at h
  · split at h
    · cases h
      exact ⟨rfl, rfl⟩
    · cases h
      exact ⟨rfl, rfl⟩
    · cases h
  · cases h
    exact ⟨rfl, rfl⟩

/-- A measured candidate is a valid one, and a valid one that came without metrics was measured. -/
theorem evaluateCandidate_measured {mode : MetricsMode} {candidate : CodeCandidate F}
    {evaluation : CandidateEvaluation F}
    (h : evaluateCandidate session mode candidate = .ok evaluation)
    (hmeasured : evaluation.measurement.isSome) :
    evaluation.candidate.validationOk ∧ evaluation.candidate.metrics.isSome := by
  unfold evaluateCandidate at h
  split at h
  · rename_i hvalid
    split at h
    · cases h
      exact ⟨hvalid, rfl⟩
    · cases h
      cases hmeasured
    · cases h
  · cases h
    cases hmeasured

theorem validCandidates_sameRule {candidates : List (CodeCandidate F)}
    {evaluations : List (CandidateEvaluation F)} {candidate : CodeCandidate F}
    (h : candidates.mapM (evaluateCandidate session .selection) = .ok evaluations)
    (hvalid : candidate ∈ validCandidates evaluations) : ∃ c ∈ candidates, candidate.SameRule c := by
  obtain ⟨evaluation, hmem, rfl⟩ := List.mem_map.mp (List.mem_of_mem_filter hvalid)
  obtain ⟨c, hc, heval⟩ := mem_of_mapM_ok h hmem
  exact ⟨c, hc, evaluateCandidate_sameRule heval⟩

/-- What a single split selects is one of the selectable candidates of its evaluations. -/
theorem runSingleSplit_selected {candidates : List (CodeCandidate F)}
    {result : CandidateBacktestResult F} (h : runSingleSplit session candidates = .ok result) :
    result.walkForward = none ∧
      ∃ evaluations, candidates.mapM (evaluateCandidate session .selection) = .ok evaluations ∧
        ∃ selected ∈ selectable session (measurements evaluations) (validCandidates evaluations),
          result.selected.SameRule selected := by
  unfold runSingleSplit at h
  obtain ⟨evaluations, hevaluations, h⟩ := bind_eq_ok.mp h
  dsimp only at h
  split at h
  · cases h
  · rename_i selected hselected
    obtain ⟨detailed, hdetailed, h⟩ := bind_eq_ok.mp h
    split at h
    · cases h
    · cases h
      refine ⟨rfl, evaluations, hevaluations, selected, pyMaxBy_mem hselected, ?_⟩
      dsimp only
      split
      · exact evaluateCandidate_sameRule hdetailed
      · exact .refl selected

/-- The candidates a fold selects from are the tradable ones. -/
theorem eligibleInFold_sameRule {fold : WalkForwardFold} {tradable eligible : List (CodeCandidate F)}
    {candidate : CodeCandidate F} (h : eligibleInFold session fold tradable = .ok eligible)
    (hmem : candidate ∈ eligible) : ∃ c ∈ tradable, candidate.SameRule c := by
  unfold eligibleInFold at h
  obtain ⟨outcomes, -, h⟩ := bind_eq_ok.mp h
  cases h
  obtain ⟨⟨proposed, metrics⟩, hpair, hcandidate⟩ := List.mem_filterMap.mp hmem
  obtain ⟨metrics, -, rfl⟩ := Option.map_eq_some_iff.mp hcandidate
  exact ⟨proposed, (List.of_mem_zip hpair).1, ⟨rfl, rfl⟩⟩

/-- The payload run under a tradable candidate's id is a tradable candidate. -/
theorem payloadOf_mem {tradable : List (CodeCandidate F)} {candidate c : CodeCandidate F}
    (hc : c ∈ tradable) (h : candidate.SameRule c) : payloadOf tradable candidate ∈ tradable := by
  have hmem : candidate.candidateId ∈ Dict.index CodeCandidate.candidateId tradable :=
    Dict.mem_index.mpr ⟨c, hc, h.candidateId.symm⟩
  obtain ⟨payload, hpayload⟩ := Dict.mem_iff_get?.mp hmem
  rw [payloadOf, hpayload]
  exact (Dict.mem_of_get?_index hpayload).1

theorem mem_foldl_insert [DecidableEq κ] (entries : List (κ × α)) (d : Dict κ α) (k : κ) :
    k ∈ entries.foldl (fun d entry => d.insert entry.1 entry.2) d ↔
      k ∈ d ∨ ∃ entry ∈ entries, entry.1 = k := by
  induction entries generalizing d with
  | nil => simp
  | cons entry entries ih =>
    rw [List.foldl_cons, ih, Dict.mem_insert, List.exists_mem_cons_iff, eq_comm (a := k)]
    tauto

/-- Complete returns are returns of exactly the targets. -/
theorem mem_completeTargetReturns {points : List (String × F)} {targets : List String}
    {returns : Dict String F} (h : completeTargetReturns points targets = some returns)
    (date : String) : date ∈ returns ↔ date ∈ targets := by
  unfold completeTargetReturns at h
  dsimp only at h
  split at h
  · rename_i hall
    cases h
    refine ⟨fun hdate => ?_, hall date⟩
    rcases (mem_foldl_insert _ _ _).mp hdate with hempty | ⟨point, hpoint, rfl⟩
    · cases hempty
    · exact of_decide_eq_true (List.mem_filter.mp hpoint).2
  · cases h

/-- What one fold records: a selection among its eligible candidates, and the returns of exactly the
sessions no earlier fold had claimed. -/
structure FoldClaim (session : Session F) (tradable : List (CodeCandidate F)) (claimed : List String)
    (selection : WalkForwardFoldSelection F) : Prop where
  selected : ∃ eligible, eligibleInFold session selection.fold tradable = .ok eligible ∧
    selectInFold eligible = some selection.candidate
  trader : selection.trader = payloadOf tradable selection.candidate
  sessions : selection.evaluationSessions =
    selection.fold.evaluationSessions.filter fun date => date ∉ claimed
  returns : ∀ date, date ∈ selection.returns ↔ date ∈ selection.evaluationSessions

theorem runFold_claim {tradable : List (CodeCandidate F)} {claimed : List String}
    {fold : WalkForwardFold} {selection : WalkForwardFoldSelection F}
    (h : runFold session tradable claimed fold index = .ok (some selection)) :
    selection.fold = fold ∧ FoldClaim session tradable claimed selection := by
  unfold runFold at h
  obtain ⟨eligible, heligible, h⟩ := bind_eq_ok.mp h
  split at h
  · cases h
  · rename_i candidate hcandidate
    dsimp only at h
    split at h
    · cases h
    · obtain ⟨outcomes, houtcomes, h⟩ := bind_eq_ok.mp h
      split at h
      · cases h
      · rename_i id evaluation hevaluation
        cases h
        refine ⟨rfl, ⟨eligible, heligible, hcandidate⟩, rfl, rfl, ?_⟩
        have hmem := (Dict.mem_of_get?_index hevaluation).1
        obtain ⟨⟨proposed, outcome⟩, hpair, hresult⟩ := List.mem_filterMap.mp hmem
        obtain ⟨outcome, houtcome, hresult⟩ := Option.map_eq_some_iff.mp hresult
        cases hresult
        dsimp only at houtcome
        subst houtcome
        obtain ⟨c, -, hc⟩ := mem_of_mapM_ok houtcomes (List.of_mem_zip hpair).2
        unfold evaluationOutcome at hc
        obtain ⟨run, -, hc⟩ := bind_eq_ok.mp hc
        obtain ⟨returns, hreturns, hc⟩ := Option.map_eq_some_iff.mp (Except.ok.inj hc)
        cases hc
        exact mem_completeTargetReturns hreturns

/-- The folds a run has recorded so far, each after the ones before it. -/
structure FoldClaims (session : Session F) (tradable : List (CodeCandidate F))
    (selections : List (WalkForwardFoldSelection F)) : Prop where
  claim : ∀ selection ∈ selections, selection.fold ∈ session.folds ∧
    ∃ claimed, FoldClaim session tradable claimed selection
  disjoint : selections.Pairwise fun first later =>
    ∀ date ∈ later.evaluationSessions, date ∉ first.evaluationSessions

theorem FoldClaims.add {tradable : List (CodeCandidate F)}
    {selections : List (WalkForwardFoldSelection F)} (h : FoldClaims session tradable selections)
    {fold : WalkForwardFold} (hfold : fold ∈ session.folds) {selection : WalkForwardFoldSelection F}
    (hrun : runFold session tradable
      (selections.flatMap WalkForwardFoldSelection.evaluationSessions) fold index =
        .ok (some selection)) : FoldClaims session tradable (selections ++ [selection]) := by
  obtain ⟨rfl, hclaim⟩ := runFold_claim hrun
  constructor
  · intro other hmem
    rcases List.mem_append.mp hmem with hmem | hmem
    · exact h.claim other hmem
    · cases List.mem_singleton.mp hmem
      exact ⟨hfold, _, hclaim⟩
  · refine List.pairwise_append.mpr ⟨h.disjoint, List.pairwise_singleton _ _, ?_⟩
    intro first hfirst later hlater date hdate
    cases List.mem_singleton.mp hlater
    rw [hclaim.sessions] at hdate
    have hnew := of_decide_eq_true (List.mem_filter.mp hdate).2
    exact fun hold => hnew (List.mem_flatMap.mpr ⟨first, hfirst, hold⟩)

theorem runFolds_claims {tradable : List (CodeCandidate F)} {folds : List (WalkForwardFold × ℕ)}
    {selections result : List (WalkForwardFoldSelection F)}
    (hfolds : ∀ fold ∈ folds, fold.1 ∈ session.folds) (h : FoldClaims session tradable selections)
    (hrun : runFolds session tradable folds selections = .ok result) :
    FoldClaims session tradable result := by
  induction folds generalizing selections with
  | nil =>
    cases hrun
    exact h
  | cons fold folds ih =>
    obtain ⟨hfold, hrest⟩ := List.forall_mem_cons.mp hfolds
    rw [runFolds] at hrun
    obtain ⟨outcome, houtcome, hrun⟩ := bind_eq_ok.mp hrun
    cases outcome with
    | none => exact ih hrest h hrun
    | some selection => exact ih hrest (h.add hfold houtcome) hrun

/-- A walk-forward result publishes the returns of its recorded folds, and the last one's choice. -/
structure WalkForwardResult (session : Session F) (candidates : List (CodeCandidate F))
    (result : CandidateBacktestResult F) (walkForward : WalkForwardPolicyResult F) : Prop where
  published : result.walkForward = some walkForward
  claims : FoldClaims session (candidates.filter CodeCandidate.validationOk) walkForward.selections
  last : ∃ last, walkForward.selections.getLast? = some last ∧ result.selected = last.candidate
  sessions : ∀ entry ∈ walkForward.dailyReturns,
    ∃ selection ∈ walkForward.selections, entry.1 ∈ selection.evaluationSessions
  curve : result.equitySessions = walkForward.dailyReturns.map Prod.fst

theorem mem_returnsBySession {selections : List (WalkForwardFoldSelection F)} {date : String} :
    date ∈ returnsBySession selections ↔ ∃ selection ∈ selections, date ∈ selection.returns := by
  rw [returnsBySession, mem_foldl_insert]
  constructor
  · rintro (hempty | ⟨entry, hentry, rfl⟩)
    · cases hempty
    · obtain ⟨selection, hselection, hmem⟩ := List.mem_flatMap.mp hentry
      exact ⟨selection, hselection, List.mem_map_of_mem hmem⟩
  · rintro ⟨selection, hselection, hdate⟩
    obtain ⟨entry, hentry, rfl⟩ := List.mem_map.mp hdate
    exact .inr ⟨entry, List.mem_flatMap.mpr ⟨selection, hselection, hentry⟩, rfl⟩

theorem runWalkForward_result {candidates : List (CodeCandidate F)}
    {result : CandidateBacktestResult F} (h : runWalkForward session candidates = .ok result) :
    ∃ walkForward, WalkForwardResult session candidates result walkForward := by
  unfold runWalkForward at h
  obtain ⟨selections, hselections, h⟩ := bind_eq_ok.mp h
  have hfolds : ∀ fold ∈ session.folds.zipIdx, fold.1 ∈ session.folds := fun fold hfold =>
    (List.mem_zipIdx' hfold).2 ▸ List.getElem_mem _
  have hclaims := runFolds_claims hfolds ⟨List.forall_mem_nil _, .nil⟩ hselections
  split at h
  · cases h
  · rename_i last hlast
    cases h
    refine ⟨_, rfl, hclaims, ⟨last, hlast, rfl⟩, ?_, rfl⟩
    intro entry hentry
    dsimp only at hentry
    split at hentry
    · have hmem := List.mem_map_of_mem (f := Prod.fst) ((mem_pySorted _).mp hentry)
      obtain ⟨selection, hselection, hdate⟩ := mem_returnsBySession.mp hmem
      obtain ⟨-, claimed, hclaim⟩ := hclaims.claim selection hselection
      exact ⟨selection, hselection, (hclaim.returns _).mp hdate⟩
    · cases hentry

end

end QuantAgent.Campaign
