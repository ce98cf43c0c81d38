import QuantAgent.Lib.Dict
import QuantAgent.Lib.PyList
import QuantAgent.Lib.Trace

namespace QuantAgent.AIBacktest
set_option autoImplicit true

/-- The column `state` of `ai_backtest_request`. -/
inductive RequestState where
  | claimed
  | generationInProgress
  | executionArmed
  | executionOutcomeUnknown
  | executionReleased
  | succeeded
  | failed
  | abandoned
deriving DecidableEq

inductive SafetyLease where
  | active
  | blockedUnknown
  | closed
  | superseded
deriving DecidableEq

def RequestState.text : RequestState → String
  | claimed => "claimed"
  | generationInProgress => "generation_in_progress"
  | executionArmed => "execution_armed"
  | executionOutcomeUnknown => "execution_outcome_unknown"
  | executionReleased => "execution_released"
  | succeeded => "succeeded"
  | failed => "failed"
  | abandoned => "abandoned"

/-- `state IN ('succeeded', 'failed', 'abandoned')` -/
def RequestState.terminal : RequestState → Bool
  | succeeded | failed | abandoned => true
  | _ => false

/-- `safety_lease IN ('active', 'blocked_unknown')` -/
def SafetyLease.live : SafetyLease → Bool
  | active | blockedUnknown => true
  | _ => false

/-- What counts as one intent: the columns of the index over live leases. -/
structure IntentKey where
  scopeFamilyId : String
  fingerprintVersion : String
  payloadFingerprint : String
deriving DecidableEq

structure AIBacktestErrorResponse where
  code : String
  message : String
  traceId : Option String
  details : Option String
  code_ne : code ≠ ""
  message_ne : message ≠ ""
deriving DecidableEq

structure AICodeBacktestFlowResult where
  traceId : String
  parseId : String
  codeId : String
  validationId : String
  executionRunId : Option String
  runId : Option String
  reportId : Option String
  codeStatus : String
  executionStatus : Option String
deriving DecidableEq

/-- `terminal_response_jsonb`: what the service dumped, and so one of two models. -/
inductive TerminalResponse where
  | error (response : AIBacktestErrorResponse)
  | result (response : AICodeBacktestFlowResult)
deriving DecidableEq

/-- `terminal_evidence_jsonb`: the texts of the values an operator gave. -/
abbrev Evidence := Dict String String

/-- A row of `ai_backtest_request`. -/
structure Request where
  requestId : String
  intentKey : IntentKey
  clientRequestKey : String
  traceId : Option String
  executionRunId : Option String := none
  state : RequestState
  safetyLease : SafetyLease
  stateVersion : ℕ
  terminalResponse : Option TerminalResponse := none
  terminalEvidence : Option Evidence := none
  createdAt : ℤ

inductive ApprovalStatus where
  | issued
  | consumed
  | expired
  | revoked
deriving DecidableEq

/-- A row of `ai_backtest_replacement_approval`. -/
structure Approval where
  approvalId : String
  sourceRequestId : String
  intentKey : IntentKey
  replacementKeyHash : String
  status : ApprovalStatus
  expiresAt : ℤ

/-- A row of `code_execution_run`. -/
structure Execution where
  executionRunId : String
  attemptId : Option String := none
  workerHost : Option String := none
  workerPid : Option ℤ := none
  workerPgid : Option ℤ := none
  workerStartedAt : Option ℤ := none
  status : String
  endedAt : Option ℤ := none

structure Tables where
  requests : Dict String Request
  approvals : Dict String Approval
  executions : Dict String Execution

def Tables.empty : Tables := ⟨Dict.empty, Dict.empty, Dict.empty⟩

structure AppError where
  statusCode : ℕ
  component : String
  code : String
  message : String
  details : List (String × Option String) := []
deriving DecidableEq

/-- What the repository takes from elsewhere: the hash of an approval token, and `UUID(str(value))`. -/
structure RepositoryEnv where
  replacementKeyHash : String → String
  uuid : String → Option String

/-- `AIBacktestRequestClaim` -/
structure RequestClaim where
  requestId : String
  traceId : Option String
  state : RequestState
  safetyLease : SafetyLease
  stateVersion : ℕ
  terminalResponse : Option TerminalResponse
deriving DecidableEq

/-- `_claim_from_row` -/
def claimFromRow (row : Request) : RequestClaim where
  requestId := row.requestId
  traceId := row.traceId
  state := row.state
  safetyLease := row.safetyLease
  stateVersion := row.stateVersion
  terminalResponse := row.terminalResponse

structure AIBacktestExecutionContext where
  userId : ℕ
  scopeFamilyId : String
deriving DecidableEq

/-- The request of the service; `intent` is what its fingerprint is built from. -/
structure FlowRequest (ι : Type) where
  userId : Option ℕ
  executionContext : Option AIBacktestExecutionContext
  idempotencyKey : Option String
  requestFingerprint : Option String
  fingerprintVersion : Option String
  replacementApprovalId : Option String
  replacementApprovalToken : Option String
  intent : ι

/-- A request that has the identity a claim needs. -/
structure BoundRequest where
  intentKey : IntentKey
  idempotencyKey : String
  replacement : Option (String × String)

def FlowRequest.bound? (request : FlowRequest ι) : Option BoundRequest := do
  let context ← request.executionContext
  let idempotencyKey ← request.idempotencyKey
  let fingerprint ← request.requestFingerprint
  let version ← request.fingerprintVersion
  pure
    { intentKey := ⟨context.scopeFamilyId, version, fingerprint⟩
      idempotencyKey := idempotencyKey
      replacement := do
        let id ← request.replacementApprovalId
        let token ← request.replacementApprovalToken
        pure (id, token) }

/-- What a claim draws and the times it reads. -/
structure ClaimDraw where
  requestId : String
  traceId : String
  createdAt : ℤ
  now : ℤ
  consumedAt : ℤ

structure Transition where
  expectedState : RequestState
  nextState : RequestState
  safetyLease : Option SafetyLease := none
  executionRunId : Option String := none
  terminalResponse : Option TerminalResponse := none

/-- The identity of a started process. -/
structure ProcessIdentity where
  attemptId : String
  workerHost : String
  workerPid : ℤ
  workerPgid : ℤ
  workerStartedAt : ℤ

/-- A process of the attempt is on record. -/
def Execution.identified (execution : Execution) (attemptId : String) : Bool :=
  execution.attemptId == some attemptId && execution.workerHost.isSome && execution.workerPid.isSome &&
    execution.workerPgid.isSome && execution.workerStartedAt.isSome

/-- The run of a released request has ended. -/
def Execution.ended (execution : Execution) : Bool :=
  (execution.status == "succeeded" || execution.status == "failed" || execution.status == "timeout") &&
    execution.endedAt.isSome

section Errors

def executionContextRequired : AppError :=
  ⟨401, "ai_backtest", "execution_context_required", "Authenticated execution context is required", []⟩

def idempotencyKeyReused (requestId : String) : AppError :=
  ⟨409, "ai_backtest", "idempotency_key_reused", "Idempotency key was reused with a different request",
    [("request_id", some requestId)]⟩

def terminalEvidenceRequired (message : String) (details : List (String × Option String)) : AppError :=
  ⟨409, "ai_backtest", "terminal_evidence_required", message, details⟩

def replacementApprovalInvalid (message : String) : AppError :=
  ⟨409, "ai_backtest", "replacement_approval_invalid", message, []⟩

def idempotencyClaimInconsistent : AppError :=
  ⟨503, "ai_backtest", "idempotency_claim_inconsistent", "Idempotency claim outcome was not found", []⟩

def duplicateExecutionActive (message requestId : String) : AppError :=
  ⟨409, "ai_backtest", "duplicate_execution_active", message, [("request_id", some requestId)]⟩

/-- `_db_error` -/
def dbQueryFailed (error : String) : AppError :=
  ⟨503, "db", "db_query_failed", "Database query failed", [("error", some error)]⟩

end Errors

namespace Tables

/-- `async with self.engine.begin()`: what raises is rolled back. -/
def transaction (t : Tables) (body : Tables → Except AppError (α × Tables)) : Except AppError α × Tables :=
  match body t with
  | .ok (a, t') => (.ok a, t')
  | .error e => (.error e, t)

def setRequest (t : Tables) (row : Request) : Tables :=
  { t with requests := t.requests.insert row.requestId row }

def setApproval (t : Tables) (row : Approval) : Tables :=
  { t with approvals := t.approvals.insert row.approvalId row }

def setExecution (t : Tables) (row : Execution) : Tables :=
  { t with executions := t.executions.insert row.executionRunId row }

/-- `UPDATE app.ai_backtest_request .. WHERE request_id = .. AND guard RETURNING ..` -/
def updateRequest (t : Tables) (requestId : String) (guard : Request → Bool) (set : Request → Request)
    (stale : AppError) : Except AppError (RequestClaim × Tables) :=
  match t.requests.get? requestId with
  | none => .error stale
  | some row => if guard row then .ok (claimFromRow (set row), t.setRequest (set row)) else .error stale

def keyRow (t : Tables) (request : BoundRequest) : Option Request :=
  t.requests.values.find? fun row =>
    row.intentKey.scopeFamilyId == request.intentKey.scopeFamilyId &&
      row.clientRequestKey == request.idempotencyKey

/-- `ORDER BY CASE WHEN safety_lease IN ('active', 'blocked_unknown') THEN 0 ELSE 1 END, created_at DESC` -/
def newerFirst (a b : Request) : Bool :=
  a.safetyLease.live && !b.safetyLease.live ||
    a.safetyLease.live == b.safetyLease.live && decide (b.createdAt < a.createdAt)

def priorRow (t : Tables) (key : IntentKey) : Option Request :=
  (pySorted newerFirst (t.requests.values.filter fun row => row.intentKey == key)).head?

/-- The answer to a row with the request's key: its claim, if it is of the same intent. -/
def matchKey (request : BoundRequest) (row : Request) : Except AppError RequestClaim :=
  if row.intentKey.payloadFingerprint ≠ request.intentKey.payloadFingerprint ∨
      row.intentKey.fingerprintVersion ≠ request.intentKey.fingerprintVersion then
    .error (idempotencyKeyReused row.requestId)
  else .ok (claimFromRow row)

/-- A closed request whose end is on record. -/
def settledSource (row : Request) : Bool :=
  row.state.terminal && row.safetyLease == .closed && row.terminalEvidence.isSome

/-- Consumes the approval of a request that replaces `prior`. -/
def consumeApproval (env : RepositoryEnv) (t : Tables) (request : BoundRequest) (prior : Request)
    (draw : ClaimDraw) : Except AppError Tables :=
  match request.replacement with
  | none =>
    .error (terminalEvidenceRequired "A replacement approval is required"
      [("request_id", some prior.requestId)])
  | some (approvalId, token) =>
    match t.approvals.get? approvalId with
    | none => .error (replacementApprovalInvalid "Replacement approval is invalid")
    | some approval =>
      if approval.intentKey ≠ request.intentKey ∨
          approval.replacementKeyHash ≠ env.replacementKeyHash token ∨ approval.status ≠ .issued ∨
          approval.expiresAt ≤ draw.now then
        .error (replacementApprovalInvalid "Replacement approval is invalid")
      else
        match t.requests.get? approval.sourceRequestId with
        | none => .error (terminalEvidenceRequired "Terminal evidence is required before replacement" [])
        | some source =>
          if source.intentKey = request.intentKey ∧ settledSource source then
            if draw.consumedAt < approval.expiresAt then
              .ok (t.setApproval { approval with status := .consumed })
            else .error (replacementApprovalInvalid "Replacement approval is invalid")
          else .error (terminalEvidenceRequired "Terminal evidence is required before replacement" [])

def claimedRow (request : BoundRequest) (draw : ClaimDraw) : Request where
  requestId := draw.requestId
  intentKey := request.intentKey
  clientRequestKey := request.idempotencyKey
  traceId := some draw.traceId
  state := .claimed
  safetyLease := .active
  stateVersion := 1
  createdAt := draw.createdAt

/-- A row that one of the unique indexes sets against the new one. -/
def conflicts (row new : Request) : Bool :=
  row.requestId == new.requestId ||
    row.intentKey.scopeFamilyId == new.intentKey.scopeFamilyId &&
      row.clientRequestKey == new.clientRequestKey ||
    row.intentKey == new.intentKey && row.safetyLease.live && new.safetyLease.live

/-- `INSERT .. ON CONFLICT DO NOTHING` with the trace of the new request, or the request it met. -/
def insertOrFind (t : Tables) (request : BoundRequest) (draw : ClaimDraw) :
    Except AppError (RequestClaim × Tables) :=
  if t.requests.values.any (conflicts · (claimedRow request draw)) then
    match t.keyRow request with
    | some existing => (matchKey request existing).map (·, t)
    | none =>
      match t.requests.values.find? fun row => row.intentKey == request.intentKey && row.safetyLease.live with
      | some equivalent => .ok (claimFromRow equivalent, t)
      | none => .error idempotencyClaimInconsistent
  else .ok (claimFromRow (claimedRow request draw), t.setRequest (claimedRow request draw))

def claimBody (env : RepositoryEnv) (request : BoundRequest) (draw : ClaimDraw) (t : Tables) :
    Except AppError (RequestClaim × Tables) :=
  match t.keyRow request with
  | some row => (matchKey request row).map (·, t)
  | none =>
    match t.priorRow request.intentKey with
    | none => t.insertOrFind request draw
    | some prior =>
      if prior.safetyLease.live then .ok (claimFromRow prior, t)
      else t.consumeApproval env request prior draw >>= fun t => t.insertOrFind request draw

def claimIdempotentRequest (env : RepositoryEnv) (t : Tables) (request : FlowRequest ι)
    (draw : ClaimDraw) : Except AppError RequestClaim × Tables :=
  match request.bound? with
  | none => (.error executionContextRequired, t)
  | some request => t.transaction (claimBody env request draw)

def transitioned (args : Transition) (row : Request) : Request :=
  { row with
    state := args.nextState
    safetyLease := args.safetyLease.getD row.safetyLease
    executionRunId := args.executionRunId.or row.executionRunId
    terminalResponse := args.terminalResponse.or row.terminalResponse
    stateVersion := row.stateVersion + 1 }

def transitionIdempotentRequest (t : Tables) (requestId : String) (args : Transition) :
    Except AppError RequestClaim × Tables :=
  t.transaction fun t =>
    -- The foreign key on `execution_run_id`.
    if args.executionRunId.any fun id => (t.executions.get? id).isNone then
      .error (dbQueryFailed "foreign key violation")
    else
      t.updateRequest requestId (fun row => row.state == args.expectedState) (transitioned args)
        (duplicateExecutionActive "Idempotency request state changed concurrently" requestId)

def releaseArmedExecutionRequest (t : Tables) (requestId : String) (expectedStateVersion : ℕ)
    (executionRunId attemptId : String) : Except AppError RequestClaim × Tables :=
  t.transaction fun t =>
    t.updateRequest requestId
      (fun row => row.state == .executionArmed && row.safetyLease == .active &&
        row.stateVersion == expectedStateVersion && row.executionRunId == some executionRunId &&
        (t.executions.get? executionRunId).any (Execution.identified · attemptId))
      (fun row => { row with state := .executionReleased, stateVersion := row.stateVersion + 1 })
      (duplicateExecutionActive "Execution release ownership changed concurrently" requestId)

/-- `_evidence_uuid` -/
def evidenceUuid (env : RepositoryEnv) (evidence : Evidence) (key : String) : Option String :=
  (evidence.get? key).bind env.uuid

def requiresExecutionEvidence (expectedState : RequestState) : Bool :=
  expectedState == .executionArmed || expectedState == .executionReleased

/-- The evidence names the run of the request and the process that ran it. -/
def evidenceMatches (env : RepositoryEnv) (t : Tables) (evidence : Evidence)
    (expectedState : RequestState) (row : Request) : Bool :=
  row.executionRunId.any fun runId =>
    evidenceUuid env evidence "execution_run_id" == some runId &&
      evidence.get? "release_state" == some expectedState.text &&
      (t.executions.get? runId).any fun execution =>
        (evidenceUuid env evidence "attempt_id").any (Execution.identified execution ·) &&
          (row.state != .executionReleased || Execution.ended execution)

def operatorTerminalizeIdempotentRequest (env : RepositoryEnv) (t : Tables) (requestId : String)
    (expectedState : RequestState) (expectedStateVersion : ℕ) (terminalState : RequestState)
    (terminalEvidence : Evidence) : Except AppError RequestClaim × Tables :=
  if (terminalState ≠ .failed ∧ terminalState ≠ .abandoned) ∨ terminalEvidence.entries = [] ∨
      requiresExecutionEvidence expectedState ∧
        (evidenceUuid env terminalEvidence "execution_run_id" = none ∨
          evidenceUuid env terminalEvidence "attempt_id" = none ∨
          terminalEvidence.get? "release_state" ≠ some expectedState.text) then
    (.error (terminalEvidenceRequired "Process and release evidence is required"
      [("request_id", some requestId)]), t)
  else
    t.transaction fun t =>
      t.updateRequest requestId
        (fun row => row.state == expectedState && row.stateVersion == expectedStateVersion &&
          row.safetyLease.live && (!requiresExecutionEvidence expectedState ||
            evidenceMatches env t terminalEvidence expectedState row))
        (fun row =>
          { row with
            state := terminalState
            safetyLease := .closed
            terminalEvidence := some terminalEvidence
            stateVersion := row.stateVersion + 1 })
        (duplicateExecutionActive "Idempotency request state changed concurrently" requestId)

def operatorRecordTerminalEvidence (t : Tables) (requestId : String) (expectedState : RequestState)
    (expectedStateVersion : ℕ) (terminalEvidence : Evidence) : Except AppError RequestClaim × Tables :=
  if terminalEvidence.entries = [] then
    (.error (terminalEvidenceRequired "Terminal evidence is required" [("request_id", some requestId)]), t)
  else
    t.transaction fun t =>
      t.updateRequest requestId
        (fun row => row.state == expectedState && row.stateVersion == expectedStateVersion &&
          row.state.terminal && row.safetyLease == .closed && row.terminalEvidence.isNone)
        (fun row =>
          { row with terminalEvidence := some terminalEvidence, stateVersion := row.stateVersion + 1 })
        (terminalEvidenceRequired "Terminal evidence state changed concurrently"
          [("request_id", some requestId)])

/-- `UPDATE .. SET status = 'expired' WHERE source_request_id = .. AND status = 'issued' AND expires_at <= now` -/
def expireApprovals (t : Tables) (sourceRequestId : String) (now : ℤ) : Tables :=
  { t with
    approvals := t.approvals.mapVal fun _ row =>
      if row.sourceRequestId = sourceRequestId ∧ row.status = .issued ∧ row.expiresAt ≤ now then
        { row with status := .expired }
      else row }

/-- A row that one of the unique indexes sets against the new approval. -/
def approvalConflicts (row new : Approval) : Bool :=
  row.approvalId == new.approvalId || row.replacementKeyHash == new.replacementKeyHash ||
    row.sourceRequestId == new.sourceRequestId && row.status == .issued && new.status == .issued

def issuedRow (env : RepositoryEnv) (source : Request) (approvalId token : String) (expiresAt : ℤ) :
    Approval where
  approvalId := approvalId
  sourceRequestId := source.requestId
  intentKey := source.intentKey
  replacementKeyHash := env.replacementKeyHash token
  status := .issued
  expiresAt := expiresAt

/-- The insertion of an approval for whose source none is live. -/
def insertApproval (t : Tables) (row : Approval) (now : ℤ) : Except AppError (Approval × Tables) :=
  if t.approvals.values.any fun live =>
      live.sourceRequestId == row.sourceRequestId && live.status == .issued &&
        decide (now < live.expiresAt) then
    .error ⟨409, "ai_backtest", "replacement_approval_already_issued",
      "A live replacement approval already exists", [("request_id", some row.sourceRequestId)]⟩
  else if t.approvals.values.any (approvalConflicts · row) then .error (dbQueryFailed "unique violation")
  else .ok (row, t.setApproval row)

def operatorIssueReplacementApproval (env : RepositoryEnv) (t : Tables)
    (sourceRequestId approvalId token : String) (now expiresAt : ℤ) : Except AppError Approval × Tables :=
  if expiresAt ≤ now then
    (.error (replacementApprovalInvalid "Replacement approval expiry must be in the future"), t)
  else
    t.transaction fun t =>
      match t.requests.get? sourceRequestId with
      | none =>
        .error (terminalEvidenceRequired "Terminal evidence is required before replacement approval"
          [("request_id", some sourceRequestId)])
      | some source =>
        if settledSource source then
          (t.expireApprovals sourceRequestId now).insertApproval
            (issuedRow env source approvalId token expiresAt) now
        else
          .error (terminalEvidenceRequired "Terminal evidence is required before replacement approval"
            [("request_id", some sourceRequestId)])

def createCodeExecutionRun (t : Tables) (executionRunId : String) : Except AppError Unit × Tables :=
  t.transaction fun t =>
    if (t.executions.get? executionRunId).isSome then .error (dbQueryFailed "unique violation")
    else .ok ((), t.setExecution { executionRunId := executionRunId, status := "running" })

def updateCodeExecutionRun (t : Tables) (executionRunId status : String) (endedAt : Option ℤ) : Tables :=
  match t.executions.get? executionRunId with
  | none => t
  | some execution => t.setExecution { execution with status := status, endedAt := endedAt }

def recordCodeExecutionProcessIdentity (t : Tables) (executionRunId : String) (identity : ProcessIdentity)
    (idempotencyRequestId : String) : Except AppError Unit × Tables :=
  t.transaction fun t =>
    let stale := duplicateExecutionActive "Execution request state changed before ownership persistence"
      idempotencyRequestId
    match t.executions.get? executionRunId with
    | none => .error stale
    | some execution =>
      if (t.requests.get? idempotencyRequestId).any fun row =>
          row.executionRunId == some executionRunId && row.state == .executionArmed &&
            row.safetyLease == .active then
        .ok ((), t.setExecution
          { execution with
            attemptId := some identity.attemptId
            workerHost := some identity.workerHost
            workerPid := some identity.workerPid
            workerPgid := some identity.workerPgid
            workerStartedAt := some identity.workerStartedAt })
      else .error stale

end Tables
end QuantAgent.AIBacktest
