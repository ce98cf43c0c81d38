import QuantAgent.AIBacktest.Requests

namespace QuantAgent.AIBacktest
set_option autoImplicit true

section Service

def beginGeneration : Transition := { expectedState := .claimed, nextState := .generationInProgress }

def armExecution (executionRunId : String) : Transition where
  expectedState := .generationInProgress
  nextState := .executionArmed
  executionRunId := some executionRunId

/-- The transitions of `_complete_success`, in the order in which they are tried. -/
def completeSuccess (result : AICodeBacktestFlowResult) : List Transition :=
  [RequestState.executionReleased, .generationInProgress].map fun expectedState =>
    { expectedState := expectedState
      nextState := .succeeded
      safetyLease := some .closed
      terminalResponse := some (.result result) }

/-- `_complete_failure` -/
def completeFailure (response : AIBacktestErrorResponse) : List Transition :=
  [RequestState.executionReleased, .executionOutcomeUnknown, .executionArmed, .generationInProgress].map
    fun expectedState =>
      { expectedState := expectedState
        nextState := .failed
        safetyLease := some .closed
        terminalResponse := some (.error response) }

/-- `_mark_outcome_unknown` -/
def markOutcomeUnknown : List Transition :=
  [RequestState.executionReleased, .executionArmed, .generationInProgress, .claimed].map
    fun expectedState =>
      { expectedState := expectedState
        nextState := .executionOutcomeUnknown
        safetyLease := some .blockedUnknown }

/-- The transitions that the service asks for. -/
inductive FromService : Transition → Prop where
  | begin : FromService beginGeneration
  | arm (executionRunId : String) : FromService (armExecution executionRunId)
  | success (result : AICodeBacktestFlowResult) : args ∈ completeSuccess result → FromService args
  | failure (response : AIBacktestErrorResponse) : args ∈ completeFailure response → FromService args
  | unknown : args ∈ markOutcomeUnknown → FromService args

end Service

/-- One transaction of a worker, a client or an operator. -/
inductive Action (ι : Type) where
  | claimIdempotentRequest (request : FlowRequest ι) (draw : ClaimDraw)
  | transitionIdempotentRequest (requestId : String) (args : Transition) (h : FromService args)
  | createCodeExecutionRun (executionRunId : String)
  | updateCodeExecutionRun (executionRunId status : String) (endedAt : Option ℤ)
  | recordCodeExecutionProcessIdentity (executionRunId : String) (identity : ProcessIdentity)
      (idempotencyRequestId : String)
  | releaseArmedExecutionRequest (requestId : String) (expectedStateVersion : ℕ)
      (executionRunId attemptId : String)
  | operatorTerminalizeIdempotentRequest (requestId : String) (expectedState : RequestState)
      (expectedStateVersion : ℕ) (terminalState : RequestState) (terminalEvidence : Evidence)
  | operatorRecordTerminalEvidence (requestId : String) (expectedState : RequestState)
      (expectedStateVersion : ℕ) (terminalEvidence : Evidence)
  | operatorIssueReplacementApproval (sourceRequestId approvalId token : String) (now expiresAt : ℤ)

inductive Reply where
  | claim (claim : RequestClaim)
  | approval (approval : Approval)
  | done

namespace Tables

def replying (f : α → Reply) (r : Except AppError α × Tables) : Except AppError Reply × Tables :=
  (r.1.map f, r.2)

def exec (env : RepositoryEnv) (t : Tables) : Action ι → Except AppError Reply × Tables
  | .claimIdempotentRequest request draw => replying .claim (t.claimIdempotentRequest env request draw)
  | .transitionIdempotentRequest requestId args _ =>
    replying .claim (t.transitionIdempotentRequest requestId args)
  | .createCodeExecutionRun executionRunId =>
    replying (fun _ => .done) (t.createCodeExecutionRun executionRunId)
  | .updateCodeExecutionRun executionRunId status endedAt =>
    (.ok .done, t.updateCodeExecutionRun executionRunId status endedAt)
  | .recordCodeExecutionProcessIdentity executionRunId identity idempotencyRequestId =>
    replying (fun _ => .done)
      (t.recordCodeExecutionProcessIdentity executionRunId identity idempotencyRequestId)
  | .releaseArmedExecutionRequest requestId expectedStateVersion executionRunId attemptId =>
    replying .claim (t.releaseArmedExecutionRequest requestId expectedStateVersion executionRunId attemptId)
  | .operatorTerminalizeIdempotentRequest requestId expectedState expectedStateVersion terminalState
      terminalEvidence =>
    replying .claim (t.operatorTerminalizeIdempotentRequest env requestId expectedState
      expectedStateVersion terminalState terminalEvidence)
  | .operatorRecordTerminalEvidence requestId expectedState expectedStateVersion terminalEvidence =>
    replying .claim (t.operatorRecordTerminalEvidence requestId expectedState expectedStateVersion
      terminalEvidence)
  | .operatorIssueReplacementApproval sourceRequestId approvalId token now expiresAt =>
    replying .approval (t.operatorIssueReplacementApproval env sourceRequestId approvalId token now expiresAt)

/-- The rows are under their own ids. -/
structure Keyed (t : Tables) : Prop where
  requests : t.requests.All fun id row => row.requestId = id
  approvals : t.approvals.All fun id row => row.approvalId = id

/-- What a claim consumes: a live approval whose source is closed with evidence. -/
structure Consumable (t : Tables) (key : IntentKey) (draw : ClaimDraw) (approval : Approval) : Prop where
  stored : t.approvals.get? approval.approvalId = some approval
  intentKey : approval.intentKey = key
  issued : approval.status = .issued
  unexpired : draw.consumedAt < approval.expiresAt
  source : ∃ source, t.requests.get? approval.sourceRequestId = some source ∧ source.intentKey = key ∧
    source.state.terminal ∧ source.safetyLease = .closed ∧ source.terminalEvidence.isSome

/-- What lets a claim insert: its intent is new, or an approval is consumed. -/
inductive Admits (t : Tables) (key : IntentKey) (draw : ClaimDraw) : Tables → Prop where
  | first (h : t.requests.values.filter (fun row => row.intentKey == key) = []) : Admits t key draw t
  | replaces (approval : Approval) (h : t.Consumable key draw approval) :
      Admits t key draw (t.setApproval { approval with status := .consumed })

/-- The two ways in which a transaction writes a request that is there. -/
inductive Writes (env : RepositoryEnv) (t : Tables) : Action ι → Request → Request → Prop where
  | transitioned (old : Request) (args : Transition) (h : FromService args)
      (hstate : old.state = args.expectedState) :
      Writes env t (.transitionIdempotentRequest old.requestId args h) old (transitioned args old)
  | released (old : Request) (execution : Execution) (hstate : old.state = .executionArmed)
      (hlease : old.safetyLease = .active) (hrun : old.executionRunId = some runId)
      (hget : t.executions.get? runId = some execution) (hidentified : execution.identified attemptId) :
      Writes env t (.releaseArmedExecutionRequest old.requestId old.stateVersion runId attemptId) old
        { old with state := .executionReleased, stateVersion := old.stateVersion + 1 }
  | terminalized (old : Request) (hterminal : terminalState = .failed ∨ terminalState = .abandoned)
      (hlive : old.safetyLease.live)
      (hevidence : requiresExecutionEvidence old.state → evidenceMatches env t evidence old.state old) :
      Writes env t (.operatorTerminalizeIdempotentRequest old.requestId old.state old.stateVersion
        terminalState evidence) old
        { old with
          state := terminalState
          safetyLease := .closed
          terminalEvidence := some evidence
          stateVersion := old.stateVersion + 1 }
  | evidenced (old : Request) (hterminal : old.state.terminal) (hlease : old.safetyLease = .closed) :
      Writes env t (.operatorRecordTerminalEvidence old.requestId old.state old.stateVersion evidence) old
        { old with terminalEvidence := some evidence, stateVersion := old.stateVersion + 1 }

/-- What a transaction can do. -/
inductive Outcome (env : RepositoryEnv) (t : Tables) : Action ι → Except AppError Reply → Tables → Prop where
  | refused : Outcome env t a (.error e) t
  | found : Outcome env t (.claimIdempotentRequest request draw) (.ok (.claim c)) t
  | admitted (h : request.bound? = some bound) (hadmits : t.Admits bound.intentKey draw t') :
      Outcome env t (.claimIdempotentRequest request draw) (.ok (.claim c)) t'
  | created (h : request.bound? = some bound) (hadmits : t.Admits bound.intentKey draw t₁)
      (hnew : ∀ row ∈ t.requests.values, conflicts row (claimedRow bound draw) = false) :
      Outcome env t (.claimIdempotentRequest request draw)
        (.ok (.claim (claimFromRow (claimedRow bound draw)))) (t₁.setRequest (claimedRow bound draw))
  | wrote (hget : t.requests.get? old.requestId = some old) (h : Writes env t a old new) :
      Outcome env t a (.ok (.claim (claimFromRow new))) (t.setRequest new)
  | issued (source : Request) (hsource : t.requests.get? source.requestId = some source)
      (hnew : (t.expireApprovals source.requestId now).approvals.get? approvalId = none) :
      Outcome env t (.operatorIssueReplacementApproval source.requestId approvalId token now expiresAt)
        (.ok (.approval (issuedRow env source approvalId token expiresAt)))
        ((t.expireApprovals source.requestId now).setApproval
          (issuedRow env source approvalId token expiresAt))
  | ran (hrequests : t'.requests = t.requests) (happrovals : t'.approvals = t.approvals) :
      Outcome env t a (.ok .done) t'

theorem updateRequest_ok {t : Tables} {requestId : String} {guard : Request → Bool} {set : Request → Request}
    (hkeyed : t.Keyed) (h : t.updateRequest requestId guard set stale = .ok (c, t')) :
    ∃ old, old.requestId = requestId ∧ t.requests.get? requestId = some old ∧ guard old ∧
      c = claimFromRow (set old) ∧ t' = t.setRequest (set old) := by
  unfold updateRequest at h
  split at h
  · cases h
  · rename_i old hget
    split at h
    · rename_i hguard
      obtain ⟨rfl, rfl⟩ := Prod.mk.inj (Except.ok.inj h)
      exact ⟨old, hkeyed.requests requestId old hget, hget, hguard, rfl, rfl⟩
    · cases h

theorem priorRow_eq_none {t : Tables} (h : t.priorRow key = none) :
    t.requests.values.filter (fun row => row.intentKey == key) = [] := by
  have hsorted := List.head?_eq_none_iff.mp h
  exact (hsorted ▸ pySorted_perm newerFirst _).symm.eq_nil

theorem consumeApproval_ok {t : Tables} {bound : BoundRequest} (hkeyed : t.Keyed)
    (h : t.consumeApproval env bound prior draw = .ok t') :
    ∃ approval, t.Consumable bound.intentKey draw approval ∧
      t' = t.setApproval { approval with status := .consumed } := by
  unfold consumeApproval at h
  split at h
  · cases h
  · rename_i approvalId token _
    split at h
    · cases h
    · rename_i approval hget
      split at h
      · cases h
      · rename_i hlive
        push Not at hlive
        obtain ⟨hkey, -, hissued, -⟩ := hlive
        split at h
        · cases h
        · rename_i source hsource
          split at h
          · rename_i hsettled
            split at h
            · rename_i hexpires
              obtain ⟨hsame, hsettled⟩ := hsettled
              simp only [settledSource, Bool.and_eq_true, beq_iff_eq] at hsettled
              have hid := hkeyed.approvals _ _ hget
              refine ⟨approval, ⟨?_, hkey, hissued, hexpires, source, hsource, hsame, hsettled.1.1,
                hsettled.1.2, hsettled.2⟩, (Except.ok.inj h).symm⟩
              rw [hid, hget]
            · cases h
          · cases h

theorem insertOrFind_ok {t : Tables} {bound : BoundRequest}
    (h : t.insertOrFind bound draw = .ok (c, t')) :
    t' = t ∨ (∀ row ∈ t.requests.values, conflicts row (claimedRow bound draw) = false) ∧
      c = claimFromRow (claimedRow bound draw) ∧ t' = t.setRequest (claimedRow bound draw) := by
  unfold insertOrFind at h
  split at h
  · left
    split at h
    · obtain ⟨c', -, hc⟩ := map_ok_iff.mp h
      exact (Prod.mk.inj hc).2.symm
    · split at h
      · exact (Prod.mk.inj (Except.ok.inj h)).2.symm
      · cases h
  · rename_i hnew
    obtain ⟨rfl, rfl⟩ := Prod.mk.inj (Except.ok.inj h)
    refine .inr ⟨fun row hrow => ?_, rfl, rfl⟩
    simp only [List.any_eq_true, not_exists, not_and, Bool.not_eq_true] at hnew
    exact hnew row hrow

theorem claimBody_cases {t : Tables} {bound : BoundRequest} (hkeyed : t.Keyed)
    (h : claimBody env bound draw t = .ok (c, t')) :
    t' = t ∨ ∃ t₁, t.Admits bound.intentKey draw t₁ ∧ (t' = t₁ ∨
      (∀ row ∈ t.requests.values, conflicts row (claimedRow bound draw) = false) ∧
        c = claimFromRow (claimedRow bound draw) ∧ t' = t₁.setRequest (claimedRow bound draw)) := by
  unfold claimBody at h
  split at h
  · obtain ⟨c', -, hc⟩ := map_ok_iff.mp h
    exact .inl (Prod.mk.inj hc).2.symm
  · split at h
    · rename_i hprior
      exact .inr ⟨t, .first (priorRow_eq_none hprior), insertOrFind_ok h⟩
    · split at h
      · exact .inl (Prod.mk.inj (Except.ok.inj h)).2.symm
      · obtain ⟨t₁, hconsume, hinsert⟩ := bind_ok_iff.mp h
        obtain ⟨approval, hconsumable, rfl⟩ := consumeApproval_ok hkeyed hconsume
        exact .inr ⟨_, .replaces approval hconsumable, insertOrFind_ok hinsert⟩

theorem Keyed.expireApprovals {t : Tables} (h : t.Keyed) (sourceRequestId : String) (now : ℤ) :
    (t.expireApprovals sourceRequestId now).Keyed where
  requests := h.requests
  approvals := h.approvals.mapVal fun id row hrow => by
    split
    · exact hrow
    · exact hrow

theorem insertApproval_ok {t : Tables} (hkeyed : t.Keyed)
    (h : t.insertApproval row now = .ok (approval, t')) :
    approval = row ∧ t' = t.setApproval row ∧ t.approvals.get? row.approvalId = none := by
  unfold insertApproval at h
  split at h
  · cases h
  · split at h
    · cases h
    · rename_i hnew
      obtain ⟨rfl, rfl⟩ := Prod.mk.inj (Except.ok.inj h)
      refine ⟨rfl, rfl, ?_⟩
      simp only [List.any_eq_true, not_exists, not_and, Bool.not_eq_true] at hnew
      cases hget : t.approvals.get? row.approvalId with
      | none => rfl
      | some old =>
        have hconflict := hnew old (List.mem_map.mpr ⟨_, Dict.entry_mem_of_get? hget, rfl⟩)
        simp [approvalConflicts, hkeyed.approvals _ _ hget] at hconflict

theorem replying_transaction {t : Tables} {f : α → Reply} {body : Tables → Except AppError (α × Tables)}
    {P : Except AppError Reply → Tables → Prop} (h : replying f (t.transaction body) = (reply, t'))
    (herror : ∀ e, P (.error e) t) (hok : ∀ a t', body t = .ok (a, t') → P (.ok (f a)) t') :
    P reply t' := by
  unfold replying transaction at h
  split at h
  · rename_i a t'' hbody
    obtain ⟨rfl, rfl⟩ := Prod.mk.inj h
    exact hok a _ hbody
  · rename_i e _
    obtain ⟨rfl, rfl⟩ := Prod.mk.inj h
    exact herror e

theorem exec_cases {t t' : Tables} {a : Action ι} (hkeyed : t.Keyed) (h : t.exec env a = (reply, t')) :
    Outcome env t a reply t' := by
  cases a with
  | claimIdempotentRequest request draw =>
    simp only [exec, claimIdempotentRequest] at h
    split at h
    · obtain ⟨rfl, rfl⟩ := Prod.mk.inj h
      exact .refused
    · rename_i bound hbound
      refine replying_transaction h (fun e => .refused) fun c t' hbody => ?_
      rcases claimBody_cases hkeyed hbody with rfl | ⟨t₁, hadmits, rfl | ⟨hnew, rfl, rfl⟩⟩
      · exact .found
      · exact .admitted hbound hadmits
      · exact .created hbound hadmits hnew
  | transitionIdempotentRequest requestId args hargs =>
    refine replying_transaction h (fun e => .refused) fun c t' hbody => ?_
    split at hbody
    · cases hbody
    · obtain ⟨old, rfl, hget, hguard, rfl, rfl⟩ := updateRequest_ok hkeyed hbody
      exact .wrote hget (.transitioned old args hargs (beq_iff_eq.mp hguard))
  | createCodeExecutionRun executionRunId =>
    refine replying_transaction h (fun e => .refused) fun c t' hbody => ?_
    split at hbody
    · cases hbody
    · obtain ⟨-, rfl⟩ := Prod.mk.inj (Except.ok.inj hbody)
      exact .ran rfl rfl
  | updateCodeExecutionRun executionRunId status endedAt =>
    obtain ⟨rfl, rfl⟩ := Prod.mk.inj h
    unfold updateCodeExecutionRun
    split
    · exact .ran rfl rfl
    · exact .ran rfl rfl
  | recordCodeExecutionProcessIdentity executionRunId identity idempotencyRequestId =>
    refine replying_transaction h (fun e => .refused) fun c t' hbody => ?_
    simp only at hbody
    split at hbody
    · cases hbody
    · split at hbody
      · obtain ⟨-, rfl⟩ := Prod.mk.inj (Except.ok.inj hbody)
        exact .ran rfl rfl
      · cases hbody
  | releaseArmedExecutionRequest requestId expectedStateVersion executionRunId attemptId =>
    refine replying_transaction h (fun e => .refused) fun c t' hbody => ?_
    obtain ⟨old, rfl, hget, hguard, rfl, rfl⟩ := updateRequest_ok hkeyed hbody
    simp only [Bool.and_eq_true, beq_iff_eq, Option.any_eq_true] at hguard
    obtain ⟨⟨⟨⟨hstate, hlease⟩, rfl⟩, hrun⟩, execution, hexecution, hidentified⟩ := hguard
    exact .wrote hget (.released old execution hstate hlease hrun hexecution hidentified)
  | operatorTerminalizeIdempotentRequest requestId expectedState expectedStateVersion terminalState
      terminalEvidence =>
    simp only [exec, operatorTerminalizeIdempotentRequest] at h
    split at h
    · obtain ⟨rfl, rfl⟩ := Prod.mk.inj h
      exact .refused
    · rename_i hvalid
      push Not at hvalid
      refine replying_transaction h (fun e => .refused) fun c t' hbody => ?_
      obtain ⟨old, rfl, hget, hguard, rfl, rfl⟩ := updateRequest_ok hkeyed hbody
      simp only [Bool.and_eq_true, beq_iff_eq, Bool.or_eq_true, Bool.not_eq_true'] at hguard
      obtain ⟨⟨⟨rfl, rfl⟩, hlive⟩, hevidence⟩ := hguard
      refine .wrote hget (.terminalized old ?_ hlive fun hrequires => ?_)
      · by_cases hfailed : terminalState = .failed
        · exact .inl hfailed
        · exact .inr (hvalid.1 hfailed)
      · rcases hevidence with hnot | hmatches
        · exact absurd hrequires (by simp [hnot])
        · exact hmatches
  | operatorRecordTerminalEvidence requestId expectedState expectedStateVersion terminalEvidence =>
    simp only [exec, operatorRecordTerminalEvidence] at h
    split at h
    · obtain ⟨rfl, rfl⟩ := Prod.mk.inj h
      exact .refused
    · refine replying_transaction h (fun e => .refused) fun c t' hbody => ?_
      obtain ⟨old, rfl, hget, hguard, rfl, rfl⟩ := updateRequest_ok hkeyed hbody
      simp only [Bool.and_eq_true, beq_iff_eq] at hguard
      obtain ⟨⟨⟨⟨rfl, rfl⟩, hterminal⟩, hlease⟩, -⟩ := hguard
      exact .wrote hget (.evidenced old hterminal hlease)
  | operatorIssueReplacementApproval sourceRequestId approvalId token now expiresAt =>
    simp only [exec, operatorIssueReplacementApproval] at h
    split at h
    · obtain ⟨rfl, rfl⟩ := Prod.mk.inj h
      exact .refused
    · refine replying_transaction h (fun e => .refused) fun approval t' hbody => ?_
      split at hbody
      · cases hbody
      · rename_i source hsource
        split at hbody
        · obtain ⟨rfl, rfl, hnew⟩ := insertApproval_ok (hkeyed.expireApprovals _ _) hbody
          obtain rfl := hkeyed.requests _ _ hsource
          exact .issued source hsource hnew
        · cases hbody

end Tables
end QuantAgent.AIBacktest
