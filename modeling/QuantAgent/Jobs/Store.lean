import QuantAgent.Jobs.Records

namespace QuantAgent
set_option autoImplicit true

structure ParseToken where
  userId : String
  specVersion : String
  specHash : String
  expiresAt : Timestamp
  consumed : Bool
deriving DecidableEq

inductive OutboxState
  | pending
  | claimed
  | delivered
deriving DecidableEq, Repr

structure OutboxRecord where
  jobId : JobId
  state : OutboxState
  claimedAt : Option Timestamp
deriving DecidableEq

structure AnalysisJobOutboxMessage where
  outboxId : String
  jobId : JobId
deriving DecidableEq

/-- The tables of a job store; `InMemoryAnalysisJobStore` keeps them as dictionaries. -/
structure AnalysisJobStore where
  jobs : Dict JobId AnalysisJob
  parseTokens : Dict String ParseToken
  parseIdempotency : Dict (String × String) (String × JobId)
  analysisJobOutbox : Dict String OutboxRecord
  researchAppendixOutbox : Dict String OutboxRecord
  /-- The status of each job's appendix. -/
  researchAppendix : Dict JobId String

/-- What an admission presents. -/
structure AdmissionRequest where
  requestText : String
  nonceHash : String
  userId : String
  specVersion : String
  specHash : String
  executionSpec : Option ExecutionSpec
  clientIdempotencyKey : String
deriving DecidableEq

/-- The ids `uuid4` draws for one admission. -/
structure DrawnIds where
  jobId : JobId
  outboxId : String
  appendixOutboxId : String
deriving DecidableEq

structure ParseBoundJobAdmission where
  job : AnalysisJob
  created : Bool
  outboxId : Option String
deriving DecidableEq

/-- The lease of a claim, in microseconds. -/
def claimLease : Timestamp := 300 * 1000000

/-- Whether a token lets a request in. -/
def ParseToken.admits (token : ParseToken) (r : AdmissionRequest) (now : Timestamp) : Bool :=
  decide (token.userId = r.userId ∧ token.specVersion = r.specVersion ∧
    token.specHash = r.specHash ∧ ¬token.expiresAt ≤ now) && !token.consumed

def AdmissionRequest.jobRequest (r : AdmissionRequest) : JobRequest where
  requestText := r.requestText
  userId := some r.userId
  executionSpecVersion := some r.specVersion
  executionSpecHash := some r.specHash
  executionSpec := r.executionSpec
  clientIdempotencyKey := some r.clientIdempotencyKey

namespace AnalysisJobStore

def empty : AnalysisJobStore := ⟨.empty, .empty, .empty, .empty, .empty, .empty⟩

def getJob (s : AnalysisJobStore) (jobId : JobId) : Option AnalysisJob := s.jobs.get? jobId

def registerParseToken (s : AnalysisJobStore)
    (nonceHash userId specVersion specHash : String) (expiresAt : Timestamp) : AnalysisJobStore :=
  if nonceHash ∈ s.parseTokens then s
  else { s with parseTokens :=
    s.parseTokens.insert nonceHash ⟨userId, specVersion, specHash, expiresAt, false⟩ }

def findParseBoundJob (s : AnalysisJobStore) (userId specHash clientIdempotencyKey : String) :
    Except JobError (Option AnalysisJob) :=
  match s.parseIdempotency.get? (userId, clientIdempotencyKey) with
  | none => .ok none
  | some (existingHash, jobId) =>
    if existingHash ≠ specHash then .error (.admission "idempotency_key_reused")
    else
      match s.getJob jobId with
      | none => .error (.admission "parse_token_unavailable")
      | some job => .ok (some job)

/-- The rows of a fresh admission, after its token is spent. -/
def recordAdmission (s : AnalysisJobStore) (r : AdmissionRequest) (ids : DrawnIds)
    (job : AnalysisJob) : AnalysisJobStore :=
  let s := { s with
    jobs := s.jobs.insert ids.jobId job
    parseIdempotency :=
      s.parseIdempotency.insert (r.userId, r.clientIdempotencyKey) (r.specHash, ids.jobId)
    analysisJobOutbox := s.analysisJobOutbox.insert ids.outboxId ⟨ids.jobId, .pending, none⟩ }
  if r.executionSpec.bind (·.classification) = some "exploratory_return_seeking" then
    { s with
      researchAppendixOutbox :=
        s.researchAppendixOutbox.insert ids.appendixOutboxId ⟨ids.jobId, .pending, none⟩
      researchAppendix := s.researchAppendix.insert ids.jobId "pending" }
  else s

/-- The store afterwards comes with the answer: a spec that fails validation costs the token. -/
def admitParseBoundJob (ctx : JobContext) (s : AnalysisJobStore) (r : AdmissionRequest)
    (ids : DrawnIds) (now : Timestamp) :
    AnalysisJobStore × Except JobError ParseBoundJobAdmission :=
  match s.parseIdempotency.get? (r.userId, r.clientIdempotencyKey) with
  | some (existingHash, existingJobId) =>
    if existingHash ≠ r.specHash then (s, .error (.admission "idempotency_key_reused"))
    else
      match s.getJob existingJobId with
      | none => (s, .error (.admission "parse_token_unavailable"))
      | some job => (s, .ok ⟨job, false, none⟩)
  | none =>
    match s.parseTokens.get? r.nonceHash with
    | none => (s, .error (.admission "parse_token_unavailable"))
    | some token =>
      if token.admits r now then
        let s := { s with
          parseTokens := s.parseTokens.insert r.nonceHash { token with consumed := true } }
        match r.jobRequest.newJob ctx ids.jobId now with
        | .error e => (s, .error e)
        | .ok job => (s.recordAdmission r ids job, .ok ⟨job, true, some ids.outboxId⟩)
      else (s, .error (.admission "parse_token_unavailable"))

def createJob (ctx : JobContext) (s : AnalysisJobStore) (r : JobRequest) (jobId : JobId)
    (now : Timestamp) : Except JobError AnalysisJobStore := do
  let job ← r.newJob ctx jobId now
  return { s with jobs := s.jobs.insert jobId job }

def claimable (s : AnalysisJobStore) (now : Timestamp) (record : OutboxRecord) : Bool :=
  let staleClaim := record.claimedAt.any fun claimedAt => decide (claimedAt < now - claimLease)
  (record.state == .pending || (record.state == .claimed && staleClaim)) &&
    (s.getJob record.jobId).any fun job => job.status == .queued

/-- Claims the first claimable records; the database skips rows another transaction has locked. -/
def claimAnalysisJobOutbox (s : AnalysisJobStore) (locked : String → Bool) (limit : ℤ)
    (now : Timestamp) : AnalysisJobStore × List AnalysisJobOutboxMessage :=
  if limit < 1 then (s, [])
  else
    let claimed := (s.analysisJobOutbox.entries.filter fun e =>
      s.claimable now e.2 && !locked e.1).take limit.toNat
    ({ s with analysisJobOutbox := claimed.foldl (fun outbox e =>
        outbox.insert e.1 ⟨e.2.jobId, .claimed, some now⟩) s.analysisJobOutbox },
      claimed.map fun e => ⟨e.1, e.2.jobId⟩)

def markAnalysisJobOutboxDelivered (s : AnalysisJobStore) (outboxId : String) : AnalysisJobStore :=
  match s.analysisJobOutbox.get? outboxId with
  | some record =>
    if record.state = .claimed then
      { s with analysisJobOutbox :=
        s.analysisJobOutbox.insert outboxId { record with state := .delivered } }
    else s
  | none => s

def releaseAnalysisJobOutbox (s : AnalysisJobStore) (outboxId : String) : AnalysisJobStore :=
  match s.analysisJobOutbox.get? outboxId with
  | some record =>
    if record.state = .claimed then
      { s with analysisJobOutbox :=
        s.analysisJobOutbox.insert outboxId ⟨record.jobId, .pending, none⟩ }
    else s
  | none => s

def hasRecoverableAnalysisJobOutbox (s : AnalysisJobStore) (jobId : JobId) : Bool :=
  s.analysisJobOutbox.values.any fun record =>
    record.jobId == jobId && (record.state == .pending || record.state == .claimed)

/-- `self.jobs[job_id] = job`, or the upsert of `_save`. -/
def saveJob (s : AnalysisJobStore) (jobId : JobId) (job : AnalysisJob) : AnalysisJobStore :=
  { s with jobs := s.jobs.insert jobId job }

def forceFailUndecodableJob (s : AnalysisJobStore) (jobId : JobId) (errorMessage reason : String)
    (now : Timestamp) : AnalysisJobStore :=
  match s.getJob jobId with
  | some job =>
    if job.status = .queued ∨ job.status = .running then
      s.saveJob jobId { job with
        status := .failed
        errorMessage := some errorMessage
        completedAt := some (now / 1000000 * 1000000)
        fallbackReasons := job.fallbackReasons ++ [reason] }
    else s
  | none => s

theorem getJob_saveJob (s : AnalysisJobStore) (jobId j : JobId) (job : AnalysisJob) :
    (s.saveJob jobId job).getJob j = if j = jobId then some job else s.getJob j :=
  Dict.get?_insert ..

@[simp] theorem registerParseToken_jobs (s : AnalysisJobStore)
    (nonceHash userId specVersion specHash : String) (expiresAt : Timestamp) :
    (s.registerParseToken nonceHash userId specVersion specHash expiresAt).jobs = s.jobs := by
  unfold registerParseToken
  split <;> rfl

@[simp] theorem claimAnalysisJobOutbox_jobs (s : AnalysisJobStore) (locked : String → Bool)
    (limit : ℤ) (now : Timestamp) :
    (s.claimAnalysisJobOutbox locked limit now).1.jobs = s.jobs := by
  unfold claimAnalysisJobOutbox
  split <;> rfl

@[simp] theorem markAnalysisJobOutboxDelivered_jobs (s : AnalysisJobStore) (outboxId : String) :
    (s.markAnalysisJobOutboxDelivered outboxId).jobs = s.jobs := by
  unfold markAnalysisJobOutboxDelivered
  split
  · split <;> rfl
  · rfl

@[simp] theorem releaseAnalysisJobOutbox_jobs (s : AnalysisJobStore) (outboxId : String) :
    (s.releaseAnalysisJobOutbox outboxId).jobs = s.jobs := by
  unfold releaseAnalysisJobOutbox
  split
  · split <;> rfl
  · rfl

@[simp] theorem recordAdmission_jobs (s : AnalysisJobStore) (r : AdmissionRequest) (ids : DrawnIds)
    (job : AnalysisJob) : (s.recordAdmission r ids job).jobs = s.jobs.insert ids.jobId job := by
  simp only [recordAdmission]
  split <;> rfl

def spendToken (s : AnalysisJobStore) (nonceHash : String) (token : ParseToken) :
    AnalysisJobStore :=
  { s with parseTokens := s.parseTokens.insert nonceHash { token with consumed := true } }

/-- Everything an admission can do. -/
inductive Admitted (ctx : JobContext) (s : AnalysisJobStore) (r : AdmissionRequest) (ids : DrawnIds)
    (now : Timestamp) : AnalysisJobStore × Except JobError ParseBoundJobAdmission → Prop
  | refused (code : String) : Admitted ctx s r ids now (s, .error (.admission code))
  | replayed (hkey : s.parseIdempotency.get? (r.userId, r.clientIdempotencyKey) =
        some (r.specHash, jobId)) (hjob : s.getJob jobId = some job) :
      Admitted ctx s r ids now (s, .ok ⟨job, false, none⟩)
  | spent (hkey : s.parseIdempotency.get? (r.userId, r.clientIdempotencyKey) = none)
      (htoken : s.parseTokens.get? r.nonceHash = some token) (hadmits : token.admits r now = true)
      (hfail : r.jobRequest.newJob ctx ids.jobId now = .error e) :
      Admitted ctx s r ids now (s.spendToken r.nonceHash token, .error e)
  | created (hkey : s.parseIdempotency.get? (r.userId, r.clientIdempotencyKey) = none)
      (htoken : s.parseTokens.get? r.nonceHash = some token) (hadmits : token.admits r now = true)
      (hjob : r.jobRequest.newJob ctx ids.jobId now = .ok job) :
      Admitted ctx s r ids now ((s.spendToken r.nonceHash token).recordAdmission r ids job,
        .ok ⟨job, true, some ids.outboxId⟩)

theorem admitted (ctx : JobContext) (s : AnalysisJobStore) (r : AdmissionRequest) (ids : DrawnIds)
    (now : Timestamp) : Admitted ctx s r ids now (s.admitParseBoundJob ctx r ids now) := by
  unfold admitParseBoundJob
  split
  · rename_i existingHash existingJobId hkey
    split
    · exact .refused _
    · rename_i hhash
      rw [not_not.mp hhash] at hkey
      split
      · exact .refused _
      · rename_i job hjob
        exact .replayed hkey hjob
  · rename_i hkey
    split
    · exact .refused _
    · rename_i token htoken
      split
      · rename_i hadmits
        split
        · rename_i e he
          exact .spent hkey htoken hadmits he
        · rename_i job hjob
          exact .created hkey htoken hadmits hjob
      · exact .refused _

theorem recordAdmission_outbox (s : AnalysisJobStore) (r : AdmissionRequest) (ids : DrawnIds)
    (job : AnalysisJob) : (s.recordAdmission r ids job).analysisJobOutbox =
      s.analysisJobOutbox.insert ids.outboxId ⟨ids.jobId, .pending, none⟩ := by
  simp only [recordAdmission]
  split <;> rfl

theorem recordAdmission_parseIdempotency (s : AnalysisJobStore) (r : AdmissionRequest)
    (ids : DrawnIds) (job : AnalysisJob) : (s.recordAdmission r ids job).parseIdempotency =
      s.parseIdempotency.insert (r.userId, r.clientIdempotencyKey) (r.specHash, ids.jobId) := by
  simp only [recordAdmission]
  split <;> rfl

theorem recordAdmission_parseTokens (s : AnalysisJobStore) (r : AdmissionRequest) (ids : DrawnIds)
    (job : AnalysisJob) : (s.recordAdmission r ids job).parseTokens = s.parseTokens := by
  simp only [recordAdmission]
  split <;> rfl

/-- An admission leaves the jobs as they are or adds the job it creates. -/
theorem admitParseBoundJob_jobs (ctx : JobContext) (s : AnalysisJobStore) (r : AdmissionRequest)
    (ids : DrawnIds) (now : Timestamp) :
    (s.admitParseBoundJob ctx r ids now).1.jobs = s.jobs ∨
      ∃ job, (s.admitParseBoundJob ctx r ids now).1.jobs = s.jobs.insert ids.jobId job := by
  generalize hout : s.admitParseBoundJob ctx r ids now = out
  have h := admitted ctx s r ids now
  rw [hout] at h
  cases h with
  | refused => exact .inl rfl
  | replayed => exact .inl rfl
  | spent => exact .inl rfl
  | created => exact .inr ⟨_, recordAdmission_jobs ..⟩

end AnalysisJobStore
end QuantAgent
