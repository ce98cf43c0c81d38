import QuantAgent.Lib.Trace
import QuantAgent.Jobs.Store

namespace QuantAgent
set_option autoImplicit true

inductive StoreMode
  | memory
  | persistent
deriving DecidableEq, Repr

/-- A store with the copies its callers have read and not yet written back. Reading a job and
writing it are separate steps in both stores: neither holds a lock in between. -/
structure JobSystem (κ : Type u) where
  store : AnalysisJobStore
  loaded : κ → Option (JobId × AnalysisJob)
  cancelled : List JobId

/-- `update_job_status`, `complete_job` and `fail_job` are a `load` followed by a `save`; a stage
report, a run, a capacity timeout and the reaper are made of these. -/
inductive JobAction (κ : Type u)
  | registerParseToken (nonceHash userId specVersion specHash : String) (expiresAt : Timestamp)
  | admitParseBoundJob (request : AdmissionRequest) (ids : DrawnIds) (now : Timestamp)
  | createJob (request : JobRequest) (jobId : JobId) (now : Timestamp)
  | claimOutbox (locked : String → Bool) (limit : ℤ) (now : Timestamp)
  | markDelivered (outboxId : String)
  | releaseOutbox (outboxId : String)
  | cancel (jobId : JobId)
  | load (call : κ) (jobId : JobId)
  | save (call : κ) (write : JobWrite) (now : Timestamp)
  | forceFail (jobId : JobId) (errorMessage reason : String) (now : Timestamp)

/-- What is settled about a job once it is terminal. -/
def AnalysisJobStore.settled (s : AnalysisJobStore) (jobId : JobId) : Option Outcome :=
  match s.getJob jobId with
  | some job => if job.status.terminal then some job.outcome else none
  | none => none

namespace JobSystem
variable {κ : Type u} [DecidableEq κ]

def start : JobSystem κ := ⟨.empty, fun _ => none, []⟩

def step (mode : StoreMode) (ctx : JobContext) (s : JobSystem κ) : JobAction κ → JobSystem κ
  | .registerParseToken nonceHash userId specVersion specHash expiresAt =>
    { s with
      store := s.store.registerParseToken nonceHash userId specVersion specHash expiresAt }
  | .admitParseBoundJob request ids now =>
    { s with store := (s.store.admitParseBoundJob ctx request ids now).1 }
  | .createJob request jobId now =>
    match s.store.createJob ctx request jobId now with
    | .ok store => { s with store }
    | .error _ => s
  | .claimOutbox locked limit now =>
    { s with store := (s.store.claimAnalysisJobOutbox locked limit now).1 }
  | .markDelivered outboxId =>
    { s with store := s.store.markAnalysisJobOutboxDelivered outboxId }
  | .releaseOutbox outboxId => { s with store := s.store.releaseAnalysisJobOutbox outboxId }
  | .cancel jobId => { s with cancelled := jobId :: s.cancelled }
  | .load call jobId =>
    { s with loaded :=
      Function.update s.loaded call ((s.store.getJob jobId).map fun job => (jobId, job)) }
  | .save call write now =>
    match s.loaded call with
    | none => s
    | some (jobId, job) =>
      let s := { s with loaded := Function.update s.loaded call none }
      match write.apply ctx job now with
      | .ok job => { s with store := s.store.saveJob jobId job }
      | .error _ => s
  | .forceFail jobId errorMessage reason now =>
    match mode with
    | .memory => s
    | .persistent =>
      { s with store := s.store.forceFailUndecodableJob jobId errorMessage reason now }

def exec (mode : StoreMode) (ctx : JobContext) (s : JobSystem κ) (acts : List (JobAction κ)) :
    JobSystem κ :=
  acts.foldl (step mode ctx) s

/-- No job row is written over a terminal job, except a repetition of its status by a caller that
has read it since. -/
def Spares (s : JobSystem κ) : JobAction κ → Prop
  | .admitParseBoundJob _ ids _ => s.store.settled ids.jobId = none
  | .createJob _ jobId _ => s.store.settled jobId = none
  | .save call write _ => ∀ jobId job o, s.loaded call = some (jobId, job) →
      s.store.settled jobId = some o → job.outcome = o ∧
        ∃ stage reasons error message, write = .updateStatus o.status stage reasons error message
  | _ => True

/-- A run whose steps all spare terminal jobs. -/
inductive SparingRun (mode : StoreMode) (ctx : JobContext) : JobSystem κ → List (JobAction κ) → Prop
  | nil : SparingRun mode ctx s []
  | cons (ha : s.Spares a) (hrest : SparingRun mode ctx (s.step mode ctx a) acts) :
      SparingRun mode ctx s (a :: acts)

end JobSystem

namespace AnalysisJobStore

theorem settled_congr {s t : AnalysisJobStore} (h : s.jobs = t.jobs) (jobId : JobId) :
    s.settled jobId = t.settled jobId := by
  unfold settled getJob
  rw [h]

theorem settled_some {s : AnalysisJobStore} (h : s.settled jobId = some o) :
    ∃ job, s.getJob jobId = some job ∧ job.status.terminal = true ∧ job.outcome = o := by
  unfold settled at h
  cases hj : s.getJob jobId with
  | none => simp [hj] at h
  | some job =>
    by_cases ht : job.status.terminal = true
    · simp only [hj, if_pos ht, Option.some.injEq] at h
      exact ⟨job, rfl, ht, h⟩
    · simp [hj, ht] at h

theorem settled_saveJob_other (s : AnalysisJobStore) (h : j ≠ jobId) (job : AnalysisJob) :
    (s.saveJob jobId job).settled j = s.settled j := by
  unfold settled
  rw [getJob_saveJob, if_neg h]

theorem settled_saveJob_same (s : AnalysisJobStore) {job : AnalysisJob}
    (ho : job.outcome = o) (ht : o.status.terminal = true) :
    (s.saveJob jobId job).settled jobId = some o := by
  have hst : job.status.terminal = true := by
    rw [← ho] at ht
    exact ht
  unfold settled
  rw [getJob_saveJob, if_pos rfl]
  simp only [hst, if_true, ho]

theorem settled_insert {s t : AnalysisJobStore} (h : t.jobs = s.jobs.insert jobId job)
    (hfree : s.settled jobId = none) (hj : s.settled j = some o) : t.settled j = some o := by
  have hne : j ≠ jobId := by
    rintro rfl
    rw [hfree] at hj
    cases hj
  have hsame : t.settled j = (s.saveJob jobId job).settled j := settled_congr h j
  rw [hsame, settled_saveJob_other s hne, hj]

theorem forceFail_settled {s : AnalysisJobStore} (h : s.settled j = some o) :
    (s.forceFailUndecodableJob jobId errorMessage reason now).settled j = some o := by
  unfold forceFailUndecodableJob
  split
  · rename_i job hjob
    split
    · rename_i hactive
      have hne : j ≠ jobId := by
        rintro rfl
        obtain ⟨job', hjob', ht, -⟩ := settled_some h
        rw [hjob, Option.some.injEq] at hjob'
        subst hjob'
        rcases hactive with hq | hr
        · simp [hq, AnalysisJobStatus.terminal] at ht
        · simp [hr, AnalysisJobStatus.terminal] at ht
      rw [settled_saveJob_other s hne, h]
    · exact h
  · exact h

end AnalysisJobStore

namespace JobSystem
open AnalysisJobStore
variable {κ : Type u} [DecidableEq κ] {mode : StoreMode} {ctx : JobContext}

theorem step_settled {s : JobSystem κ} {a : JobAction κ} (ha : s.Spares a)
    (h : s.store.settled j = some o) : (s.step mode ctx a).store.settled j = some o := by
  cases a with
  | registerParseToken nonceHash userId specVersion specHash expiresAt =>
    rw [step, settled_congr (registerParseToken_jobs ..), h]
  | admitParseBoundJob request ids now =>
    rcases admitParseBoundJob_jobs ctx s.store request ids now with hsame | ⟨job, hins⟩
    · rw [step, settled_congr hsame, h]
    · exact settled_insert hins ha h
  | createJob request jobId now =>
    rw [step]
    cases hc : s.store.createJob ctx request jobId now with
    | error e => exact h
    | ok store =>
      obtain ⟨job, -, hstore⟩ := bind_ok_iff.mp hc
      cases hstore
      exact settled_insert rfl ha h
  | claimOutbox locked limit now => rw [step, settled_congr (claimAnalysisJobOutbox_jobs ..), h]
  | markDelivered outboxId => rw [step, settled_congr (markAnalysisJobOutboxDelivered_jobs ..), h]
  | releaseOutbox outboxId => rw [step, settled_congr (releaseAnalysisJobOutbox_jobs ..), h]
  | cancel jobId => exact h
  | load call jobId => exact h
  | save call write now =>
    rw [step]
    cases hl : s.loaded call with
    | none => exact h
    | some copy =>
      obtain ⟨jobId, job⟩ := copy
      cases hw : write.apply ctx job now with
      | error e =>
        simp only [hw]
        exact h
      | ok job' =>
        simp only [hw]
        by_cases hj : j = jobId
        · subst hj
          obtain ⟨hjob, stage, reasons, error, message, rfl⟩ := ha j job o hl h
          obtain ⟨_, _, hterminal, hout⟩ := settled_some h
          have ho := (JobWrite.apply_ok hw).2
          simp only [hjob] at ho
          refine settled_saveJob_same _ ho ?_
          rw [← hout]
          exact hterminal
        · rw [settled_saveJob_other _ hj, h]
  | forceFail jobId errorMessage reason now =>
    cases mode with
    | memory => exact h
    | persistent => exact forceFail_settled h

/-- A process whose specs all validate and whose ledgers all reconcile. -/
def plainContext : JobContext where
  incarnation := "process"
  validateExecutionSpec spec := .ok spec
  traceId text _ := text
  ledgerReconciles _ := true

def readyEnvelope : APIEnvelope where
  status := .ready
  traceId := "query"
  userPayload := ⟨"headline", "message", [], true⟩
  strategySpec := none
  debugRef := "debug"
  retryable := false
  failureCause := none

/-- A spec hash of one digit, repeated. -/
def hashOf (c : Char) : String := String.ofList (List.replicate 64 c)

def capacityTimeout : JobWrite :=
  .fail "분석 대기열이 가득 차 시간 안에 실행하지 못했습니다. 잠시 후 다시 시도해 주세요." none none

/-- One dispatcher runs the job to its end. -/
def completedRun : List (JobAction ℕ) :=
  [.createJob { requestText := "query" } "job_1" 0,
    .load 1 "job_1", .save 1 (.updateStatus .running .interpreting none none none) 1,
    .load 1 "job_1", .save 1 (.complete readyEnvelope none) 2]

/-- A second dispatcher of the same job gives up its wait for a capacity slot. -/
def lateTimeout : List (JobAction ℕ) := [.load 2 "job_1", .save 2 capacityTimeout 3]

theorem completed_settled (mode : StoreMode) :
    (start.exec mode plainContext completedRun).store.settled "job_1" =
      some ⟨.completed, some readyEnvelope, some 2⟩ := by
  cases mode <;> decide +kernel

/-- Once a job is terminal, no further operation changes its outcome. -/
def TerminalFinal (mode : StoreMode) : Prop :=
  ∀ (acts more : List (JobAction ℕ)) (jobId : JobId) (o : Outcome),
    (start.exec mode plainContext acts).store.settled jobId = some o →
      (start.exec mode plainContext (acts ++ more)).store.settled jobId = some o

end JobSystem
end QuantAgent
