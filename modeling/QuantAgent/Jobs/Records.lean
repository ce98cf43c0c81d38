import QuantAgent.Lib.Dict

namespace QuantAgent
set_option autoImplicit true

abbrev JobId := String

/-- A UTC time in microseconds. -/
abbrev Timestamp := ℤ

inductive AnalysisJobStatus
  | queued
  | running
  | completed
  | failed
deriving DecidableEq, Repr

def AnalysisJobStatus.terminal : AnalysisJobStatus → Bool
  | .completed => true
  | .failed => true
  | _ => false

inductive Stage
  | interpreting
  | codeGeneration
  | backtest
  | debate
  | finalizing
deriving DecidableEq, Repr

/-- `list(Stage)` -/
def Stage.order : List Stage := [.interpreting, .codeGeneration, .backtest, .debate, .finalizing]

inductive StageStatus
  | queued
  | running
  | succeeded
  | failed
deriving DecidableEq, Repr

structure StageProgress where
  stage : Stage
  status : StageStatus
  updatedAt : Timestamp
  message : Option String
deriving DecidableEq

def stageStatusFor (index currentIndex : ℕ) (status : AnalysisJobStatus) : StageStatus :=
  match status with
  | .queued => .queued
  | .running =>
    if index < currentIndex then .succeeded
    else if index = currentIndex then .running
    else .queued
  | .completed => .succeeded
  | .failed =>
    if index < currentIndex then .succeeded
    else if index = currentIndex then .failed
    else .queued

def stageProgresses (pollingStage : Stage) (status : AnalysisJobStatus) (updatedAt : Timestamp)
    (message : Option String) : List StageProgress :=
  let currentIndex := Stage.order.idxOf pollingStage
  Stage.order.zipIdx.map fun (stage, index) => {
    stage
    status := stageStatusFor index currentIndex status
    updatedAt
    message := if stage = pollingStage then message else none }

inductive EnvelopeStatus
  | ready
  | needClarification
  | rejected
  | failed
deriving DecidableEq, Repr

structure FailureDiagnostic where
  category : String
  subcause : String
  failureStage : Stage
  owner : String
  retryable : Bool
  safeMessage : String
  evidenceRefs : List String
deriving DecidableEq

structure UserPayload where
  headline : String
  message : String
  nextActions : List String
  hasReport : Bool
deriving DecidableEq

structure APIEnvelope where
  status : EnvelopeStatus
  traceId : String
  userPayload : UserPayload
  /-- The id of the strategy spec, when there is one. -/
  strategySpec : Option String
  debugRef : String
  retryable : Bool
  failureCause : Option FailureDiagnostic
deriving DecidableEq

/-- What admission reads of an execution spec, with its canonical text. -/
structure ExecutionSpec where
  classification : Option String
  document : String
deriving DecidableEq

structure ExecutionRunIdentity where
  jobId : JobId
  traceId : String
  strategyId : Option String
  runId : Option String
deriving DecidableEq

structure ExecutionSession where
  requestedAt : Timestamp
  startedAt : Option Timestamp
  endedAt : Option Timestamp
deriving DecidableEq

structure ExecutionManifest where
  runIdentity : ExecutionRunIdentity
  session : ExecutionSession
deriving DecidableEq

structure AnalysisJob where
  jobId : JobId
  traceId : String
  query : String
  userId : Option String
  strategyId : Option String
  runId : Option String
  reportId : Option String
  executionSpecVersion : Option String
  executionSpecHash : Option String
  executionSpec : Option ExecutionSpec
  clientIdempotencyKey : Option String
  status : AnalysisJobStatus
  pollingStage : Stage
  createdAt : Timestamp
  updatedAt : Timestamp
  completedAt : Option Timestamp
  stages : List StageProgress
  result : Option APIEnvelope
  debugRef : Option String
  fallbackReasons : List String
  errorMessage : Option String
  ownerIncarnation : Option String
  executionManifest : ExecutionManifest
deriving DecidableEq

inductive JobError
  | keyError (message : String)
  | invalidSpec (message : String)
  /-- The `ValidationError` of a model, with the fields it lists. -/
  | validation (fields : List String)
  | ledgerMismatch (message : String)
  /-- `ParseBoundAdmissionError` with its code. -/
  | admission (code : String)
  | uniqueViolation (constraint : String)
deriving DecidableEq

def ExecutionManifest.withSessionUpdate (manifest : ExecutionManifest) (status : AnalysisJobStatus)
    (timestamp : Timestamp) (strategyId : Option String) : ExecutionManifest :=
  let session :=
    if status = .running ∧ manifest.session.startedAt = none then
      { manifest.session with startedAt := some timestamp }
    else if status = .completed ∨ status = .failed then
      { manifest.session with endedAt := some timestamp }
    else manifest.session
  let runIdentity :=
    if strategyId ≠ none ∧ manifest.runIdentity.strategyId ≠ strategyId then
      { manifest.runIdentity with strategyId }
    else manifest.runIdentity
  { session, runIdentity }

/-- The parameters of `create_job`. -/
structure JobRequest where
  requestText : String
  userId : Option String := none
  strategyId : Option String := none
  runId : Option String := none
  fallbackReasons : List String := []
  executionSpecVersion : Option String := none
  executionSpecHash : Option String := none
  executionSpec : Option ExecutionSpec := none
  clientIdempotencyKey : Option String := none
deriving DecidableEq

/-- What a process adds to a request: its incarnation, `validate_execution_spec`, and the trace
digest of the text and the time. -/
structure JobContext where
  incarnation : String
  validateExecutionSpec : ExecutionSpec → Except JobError ExecutionSpec
  traceId : String → Timestamp → String
  /-- Whether the storage ledger of a finished run matches its own count and hash. -/
  ledgerReconciles : APIEnvelope → Bool

/-- `^[0-9a-f]{64}$` -/
def hexDigest (s : String) : Bool :=
  s.length == 64 && s.toList.all fun c => c.isDigit || (decide ('a' ≤ c) && decide (c ≤ 'f'))

/-- The fields of `AnalysisJob` whose constraints a request can break. -/
def JobRequest.invalidFields (r : JobRequest) : List String :=
  (if r.requestText = "" then ["query"] else []) ++
    if r.executionSpecHash.all hexDigest then [] else ["execution_spec_hash"]

section
variable (ctx : JobContext)

/-- The job `create_job` stores under the id it drew. -/
def JobRequest.newJob (r : JobRequest) (jobId : JobId) (now : Timestamp) :
    Except JobError AnalysisJob := do
  let traceId := ctx.traceId r.requestText now
  let executionSpec ← match r.executionSpec with
    | none => pure none
    | some spec => some <$> ctx.validateExecutionSpec spec
  if r.invalidFields = [] then
    return {
      jobId
      traceId
      query := r.requestText
      userId := r.userId
      strategyId := r.strategyId
      runId := r.runId
      reportId := none
      executionSpecVersion := r.executionSpecVersion
      executionSpecHash := r.executionSpecHash
      executionSpec
      clientIdempotencyKey := r.clientIdempotencyKey
      status := .queued
      pollingStage := .interpreting
      createdAt := now
      updatedAt := now
      completedAt := none
      stages := stageProgresses .interpreting .queued now none
      result := none
      debugRef := none
      fallbackReasons := r.fallbackReasons
      errorMessage := none
      ownerIncarnation := some ctx.incarnation
      executionManifest := ⟨⟨jobId, traceId, r.strategyId, r.runId⟩, ⟨now, none, none⟩⟩ }
  else throw (.validation r.invalidFields)

def AnalysisJob.updateJobStatus (job : AnalysisJob) (status : AnalysisJobStatus)
    (pollingStage : Stage) (fallbackReasons : Option (List String)) (errorMessage : Option String)
    (message : Option String) (now : Timestamp) : AnalysisJob :=
  { job with
    status
    pollingStage
    updatedAt := now
    stages := stageProgresses pollingStage status now message
    executionManifest := job.executionManifest.withSessionUpdate status now none
    fallbackReasons := fallbackReasons.getD job.fallbackReasons
    errorMessage := errorMessage.or job.errorMessage }

def AnalysisJob.completeJob (job : AnalysisJob) (resultEnvelope : APIEnvelope)
    (fallbackReasons : Option (List String)) (completedAt : Timestamp) :
    Except JobError AnalysisJob :=
  let strategyId := job.strategyId.or resultEnvelope.strategySpec
  let reportId :=
    if job.reportId = none ∧ resultEnvelope.userPayload.hasReport then some ("report_" ++ job.jobId)
    else job.reportId
  if ctx.ledgerReconciles resultEnvelope then
    .ok { job with
      strategyId
      reportId
      status := .completed
      pollingStage := .finalizing
      updatedAt := completedAt
      completedAt := some completedAt
      stages := stageProgresses .finalizing .completed completedAt none
      result := some resultEnvelope
      debugRef := some resultEnvelope.debugRef
      fallbackReasons := fallbackReasons.getD job.fallbackReasons
      errorMessage := none
      executionManifest :=
        job.executionManifest.withSessionUpdate .completed completedAt strategyId }
  else .error (.ledgerMismatch "storage execution ledger count/hash reconciliation failed.")

/-- What `classify_failure` makes of a bare error message. -/
def unknownFailure (stage : Stage) : FailureDiagnostic where
  category := "unknown_failure"
  subcause := "unknown"
  failureStage := stage
  owner := "unknown"
  retryable := true
  safeMessage := "AI 분석 중 분류되지 않은 오류가 발생했습니다. 원문 오류는 공개 응답에 노출하지 않고 debug_ref로 추적합니다."
  evidenceRefs := ["failure:unknown"]

def AnalysisJob.failureEnvelope (job : AnalysisJob) (failureCause : Option FailureDiagnostic) :
    APIEnvelope :=
  let diagnostic := failureCause.getD (unknownFailure .finalizing)
  { status := .failed
    traceId := job.traceId
    userPayload := {
      headline := "AI 분석을 완료하지 못했습니다."
      message := diagnostic.safeMessage
      nextActions := ["조건을 좁혀 재시도", "문제가 반복되면 debug_ref 공유"]
      hasReport := false }
    strategySpec := none
    debugRef := "job-error:" ++ job.jobId
    retryable := diagnostic.retryable
    failureCause := some diagnostic }

def AnalysisJob.failJob (job : AnalysisJob) (errorMessage : String)
    (fallbackReasons : Option (List String)) (resultEnvelope : Option APIEnvelope)
    (failedAt : Timestamp) : AnalysisJob :=
  let result := { resultEnvelope.getD (job.failureEnvelope none) with status := .failed }
  let failedStage := (result.failureCause.map (·.failureStage)).getD job.pollingStage
  { job with
    status := .failed
    pollingStage := failedStage
    updatedAt := failedAt
    completedAt := some failedAt
    stages := stageProgresses failedStage .failed failedAt (some errorMessage)
    result := some result
    debugRef := some result.debugRef
    fallbackReasons := fallbackReasons.getD job.fallbackReasons
    errorMessage := some errorMessage
    executionManifest := job.executionManifest.withSessionUpdate .failed failedAt none }

end

/-- The writes a store applies to the copy of a job it has read. -/
inductive JobWrite
  | updateStatus (status : AnalysisJobStatus) (pollingStage : Stage)
      (fallbackReasons : Option (List String)) (errorMessage message : Option String)
  | complete (resultEnvelope : APIEnvelope) (fallbackReasons : Option (List String))
  | fail (errorMessage : String) (fallbackReasons : Option (List String))
      (resultEnvelope : Option APIEnvelope)
deriving DecidableEq

def JobWrite.apply (ctx : JobContext) (w : JobWrite) (job : AnalysisJob) (now : Timestamp) :
    Except JobError AnalysisJob :=
  match w with
  | .updateStatus status stage reasons error message =>
    .ok (job.updateJobStatus status stage reasons error message now)
  | .complete envelope reasons => job.completeJob ctx envelope reasons now
  | .fail error reasons envelope => .ok (job.failJob error reasons envelope now)

/-- The part of a job that is final once the job is. -/
structure Outcome where
  status : AnalysisJobStatus
  result : Option APIEnvelope
  completedAt : Option Timestamp
deriving DecidableEq

def AnalysisJob.outcome (job : AnalysisJob) : Outcome := ⟨job.status, job.result, job.completedAt⟩

theorem AnalysisJob.completeJob_ok {ctx : JobContext} {job : AnalysisJob}
    (h : job.completeJob ctx envelope reasons now = .ok job') :
    job'.jobId = job.jobId ∧ job'.status = .completed ∧ job'.result = some envelope ∧
      job'.completedAt = some now := by
  by_cases hl : ctx.ledgerReconciles envelope = true
  · simp only [completeJob, if_pos hl] at h
    obtain rfl := Except.ok.inj h
    exact ⟨rfl, rfl, rfl, rfl⟩
  · simp only [completeJob, if_neg hl] at h
    cases h

/-- A created job carries the request's values, and these have passed every check. -/
theorem JobRequest.newJob_ok {ctx : JobContext} {r : JobRequest} (h : r.newJob ctx jobId now = .ok job) :
    job.jobId = jobId ∧ job.status = .queued ∧ job.userId = r.userId ∧
      job.clientIdempotencyKey = r.clientIdempotencyKey ∧
      job.executionSpecHash = r.executionSpecHash ∧ r.invalidFields = [] ∧
      ∀ spec, r.executionSpec = some spec →
        ∃ spec', ctx.validateExecutionSpec spec = .ok spec' := by
  unfold newJob at h
  cases hs : r.executionSpec with
  | none =>
    rw [hs] at h
    by_cases hfields : r.invalidFields = []
    · simp only [if_pos hfields] at h
      cases h
      exact ⟨rfl, rfl, rfl, rfl, rfl, hfields, nofun⟩
    · simp only [if_neg hfields] at h
      cases h
  | some spec =>
    rw [hs] at h
    cases hv : ctx.validateExecutionSpec spec with
    | error e =>
      simp only [hv] at h
      cases h
    | ok spec' =>
      by_cases hfields : r.invalidFields = []
      · simp only [hv, if_pos hfields] at h
        cases h
        refine ⟨rfl, rfl, rfl, rfl, rfl, hfields, ?_⟩
        intro other hother
        obtain rfl := Option.some.inj hother
        exact ⟨spec', hv⟩
      · simp only [hv, if_neg hfields] at h
        cases h

/-- A write other than a status update ends a job. -/
theorem JobWrite.apply_ok {ctx : JobContext} {w : JobWrite} {job : AnalysisJob}
    (h : w.apply ctx job now = .ok job') :
    job'.jobId = job.jobId ∧
      match w with
      | .updateStatus status .. => job'.outcome = { job.outcome with status }
      | .complete envelope _ => job'.status = .completed ∧ job'.result = some envelope
      | .fail .. => job'.status = .failed := by
  cases w with
  | updateStatus status stage reasons error message =>
    cases h
    exact ⟨rfl, rfl⟩
  | complete envelope reasons =>
    obtain ⟨hid, hstatus, hresult, -⟩ := AnalysisJob.completeJob_ok h
    exact ⟨hid, hstatus, hresult⟩
  | fail error reasons envelope =>
    cases h
    exact ⟨rfl, rfl⟩

end QuantAgent
