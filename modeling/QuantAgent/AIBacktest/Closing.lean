import QuantAgent.AIBacktest.Replay

namespace QuantAgent.AIBacktest
set_option autoImplicit true

/-- An operator's evidence names the run of a request and its attempt, and the run has ended. -/
def EndedOnEvidence (env : RepositoryEnv) (t : Tables) (evidence : Evidence) (row : Request) : Prop :=
  ∃ runId attemptId execution, row.executionRunId = some runId ∧
    Tables.evidenceUuid env evidence "execution_run_id" = some runId ∧
    Tables.evidenceUuid env evidence "attempt_id" = some attemptId ∧
    t.executions.get? runId = some execution ∧ execution.attemptId = some attemptId ∧ execution.ended

/-- The execution of a request was released at some point of a log. -/
def WasReleased (log : List (Entry ι)) (id : String) : Prop :=
  ∃ e ∈ log, ∃ row, e.after.requests.get? id = some row ∧ row.state = .executionReleased

/-- An operator closes a request with an evidence, on what it expects of its state. -/
def Entry.Closes (e : Entry ι) (id : String) (expectedState : RequestState) (evidence : Evidence) : Prop :=
  ∃ version terminalState, e.action =
    .operatorTerminalizeIdempotentRequest id expectedState version terminalState evidence

namespace Run

/-- What a run released, its operators closed on evidence only. -/
def ReleasedClosedOnEvidence (env : RepositoryEnv) (r : Run ι) : Prop :=
  ∀ newer e older, r.log = newer ++ e :: older → ∀ id expectedState evidence claim,
    e.Closes id expectedState evidence → e.reply = .ok (.claim claim) → WasReleased older id →
    ∃ row, e.before.requests.get? id = some row ∧ EndedOnEvidence env e.before evidence row

/-- No operator closes a request as one of an unknown outcome that had been released. -/
def UnknownNeverReleased (r : Run ι) : Prop :=
  ∀ newer e older, r.log = newer ++ e :: older → ∀ id evidence,
    e.Closes id .executionOutcomeUnknown evidence → ¬ WasReleased older id

/-- The entries of a run are in order: what one leaves behind is there when a later one starts. -/
theorem log_ordered (env : RepositoryEnv) (acts : List (Action ι)) :
    (Run.exec env acts).log.Pairwise fun e e' => e'.after.Advances e.before := by
  have hrun : ∀ r, Inv env r → (r.log.Pairwise fun e e' => e'.after.Advances e.before) →
      ((acts.foldl (Run.step env) r).log.Pairwise fun e e' => e'.after.Advances e.before) := by
    induction acts with
    | nil => exact fun r _ hordered => hordered
    | cons a acts ih =>
      intro r h hordered
      apply ih (r.step env a) (h.step a)
      exact List.pairwise_cons.mpr ⟨h.advanced, hordered⟩
  have hstart : Inv env (⟨.empty, []⟩ : Run ι) := Inv.exec env []
  exact hrun _ hstart .nil

/-- The log of a run has its actions, the latest first. -/
theorem log_actions (env : RepositoryEnv) (acts : List (Action ι)) :
    (Run.exec env acts).log.map Entry.action = acts.reverse := by
  have hrun : ∀ r : Run ι, (acts.foldl (Run.step env) r).log.map Entry.action =
      acts.reverse ++ r.log.map Entry.action := by
    induction acts with
    | nil => exact fun r => rfl
    | cons a acts ih =>
      intro r
      rw [List.foldl_cons, ih, List.reverse_cons, List.append_assoc]
      rfl
  exact (hrun ⟨.empty, []⟩).trans (List.append_nil _)

/-- The evidence of a closing that was accepted on a released request. -/
theorem evidenceMatches_ended {t : Tables} {row : Request}
    (h : Tables.evidenceMatches env t evidence row.state row) (hstate : row.state = .executionReleased) :
    EndedOnEvidence env t evidence row := by
  simp only [Tables.evidenceMatches, Option.any_eq_true, Bool.and_eq_true, Bool.or_eq_true, beq_iff_eq,
    hstate, bne_self_eq_false, Bool.false_eq_true, false_or] at h
  obtain ⟨runId, hrun, ⟨hevidence, -⟩, execution, hexecution, ⟨attemptId, hattempt, hidentified⟩, hended⟩ := h
  simp only [Execution.identified, Bool.and_eq_true, beq_iff_eq] at hidentified
  exact ⟨runId, attemptId, execution, hrun, hevidence, hattempt, hexecution, hidentified.1.1.1.1, hended⟩

/-- A run in which no request that was released is closed as one of an unknown outcome closes every
released request on evidence. -/
theorem released_closed_on_evidence (env : RepositoryEnv) (acts : List (Action ι))
    (hunknown : (Run.exec env acts).UnknownNeverReleased) :
    (Run.exec env acts).ReleasedClosedOnEvidence env := by
  rintro newer ⟨action, reply, before, after⟩ older hlog id expectedState evidence claim
    ⟨version, terminalState, rfl⟩ rfl ⟨e', he', row', hrow', hstate'⟩
  have hinv := Inv.exec env acts
  have hordered := log_ordered env acts
  obtain ⟨hbefore, hexec⟩ : before.Inv ∧ before.exec env _ = (_, after) :=
    hinv.sound _ (hlog ▸ List.mem_append_right newer List.mem_cons_self)
  rw [hlog] at hordered
  have hadvances := (List.pairwise_cons.mp (List.pairwise_append.mp hordered).2.1).1 e' he'
  obtain ⟨row, hrow, -, hrank⟩ := hadvances.requests id row' hrow'
  cases Tables.exec_cases hbefore.keyed hexec with
  | wrote hget hwrites =>
    cases hwrites with
    | terminalized old hterminal hlive hevidence =>
      obtain rfl := Option.some.inj (hrow.symm.trans hget)
      refine ⟨row, hrow, ?_⟩
      rw [hstate'] at hrank
      have hopen := (hbefore.consistent _ _ hrow).live_iff.mp hlive
      -- Once released, an open request is released still or of an unknown outcome.
      cases hstate : row.state with
      | executionReleased =>
        have hrequires : Tables.requiresExecutionEvidence row.state := by
          rw [hstate]
          rfl
        exact evidenceMatches_ended (hevidence hrequires) hstate
      | executionOutcomeUnknown =>
        refine absurd ⟨e', he', row', hrow', hstate'⟩ (hunknown newer _ older hlog _ evidence ?_)
        exact ⟨_, _, congrArg (Action.operatorTerminalizeIdempotentRequest _ · _ _ _) hstate⟩
      | claimed | generationInProgress | executionArmed =>
        rw [hstate] at hrank
        exact absurd hrank (by decide)
      | succeeded | failed | abandoned =>
        rw [hstate] at hopen
        exact absurd hopen (by decide)

/-- A worker releases the execution of a request. -/
def releasedRequest : List (Action String) :=
  [.claimIdempotentRequest (plainRequest "first-key" "intent") (plainDraw 0),
    .transitionIdempotentRequest "request-0" beginGeneration .begin,
    .createCodeExecutionRun "run-0",
    .transitionIdempotentRequest "request-0" (armExecution "run-0") (.arm "run-0"),
    .recordCodeExecutionProcessIdentity "run-0" ⟨"attempt-0", "host", 1, 1, 0⟩ "request-0",
    .releaseArmedExecutionRequest "request-0" 3 "run-0" "attempt-0"]

/-- The worker does not learn the outcome. -/
def outcomeUnknown : Action String :=
  .transitionIdempotentRequest "request-0"
    { expectedState := .executionReleased
      nextState := .executionOutcomeUnknown
      safetyLease := some .blockedUnknown } (.unknown List.mem_cons_self)

/-- An operator's evidence that names no run. -/
def workerLost : Evidence := Dict.empty.insert "reason" "worker lost"

def abandonUnknown : Action String :=
  .operatorTerminalizeIdempotentRequest "request-0" .executionOutcomeUnknown 5 .abandoned workerLost

/-- A request that was released is abandoned without evidence of its run, which is still on record as
running. -/
theorem unknown_closed_without_evidence :
    ¬ (exec plainEnv (releasedRequest ++ [outcomeUnknown, abandonUnknown])).ReleasedClosedOnEvidence
      plainEnv := by
  intro h
  have hreleased : WasReleased (exec plainEnv (releasedRequest ++ [outcomeUnknown])).log "request-0" :=
    ⟨_, List.mem_cons_of_mem _ List.mem_cons_self, _, rfl, rfl⟩
  obtain ⟨row, -, runId, attemptId, execution, -, hrun, -⟩ :=
    h [] _ _ rfl "request-0" .executionOutcomeUnknown workerLost _ ⟨5, .abandoned, rfl⟩ rfl hreleased
  have hnone : Tables.evidenceUuid plainEnv workerLost "execution_run_id" = none := rfl
  rw [hnone] at hrun
  cases hrun

/-- The worker records the end of the run, and an operator closes the request on it. -/
def endedClosed : List (Action String) :=
  releasedRequest ++
    [.updateCodeExecutionRun "run-0" "failed" (some 1),
      .operatorTerminalizeIdempotentRequest "request-0" .executionReleased 4 .failed
        (((Dict.empty.insert "execution_run_id" "run-0").insert "attempt_id" "attempt-0").insert
          "release_state" "execution_released")]

/-- The operator's closing of an ended run is one, and is on evidence. -/
theorem ended_closed_on_evidence :
    (∃ claim e older, (exec plainEnv endedClosed).log = e :: older ∧ e.reply = .ok (.claim claim) ∧
      claim.state = .failed ∧ WasReleased older "request-0") ∧
      (exec plainEnv endedClosed).ReleasedClosedOnEvidence plainEnv := by
  refine ⟨⟨_, _, _, rfl, rfl, rfl, ?_⟩, released_closed_on_evidence plainEnv endedClosed ?_⟩
  · exact ⟨_, List.mem_cons_of_mem _ List.mem_cons_self, _, rfl, rfl⟩
  · rintro newer e older hlog id evidence ⟨version, terminalState, haction⟩
    have hmem : e.action ∈ endedClosed.reverse := by
      rw [← log_actions plainEnv endedClosed, hlog]
      exact List.mem_map.mpr ⟨e, List.mem_append_right _ List.mem_cons_self, rfl⟩
    rw [haction, List.mem_reverse] at hmem
    simp [endedClosed, releasedRequest] at hmem

end Run
end QuantAgent.AIBacktest
