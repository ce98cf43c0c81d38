import QuantAgent.Lib.Relational
import QuantAgent.Jobs.EventBuffer
import QuantAgent.Jobs.FailureStage

namespace QuantAgent
set_option autoImplicit true

/-- What the events of a live buffer say: a stage was reached, or a provider did something. -/
inductive LiveEvent (ε : Type)
  | stage (stage : Stage)
  | activity (event : ε)

/-- What a run of a job can be seen to change. -/
structure LiveJobs (ε : Type) where
  store : AnalysisJobStore
  events : Option (JobEventBuffer (LiveEvent ε))

/-- The jobs as they are now, and as they were before each change of the run. -/
structure Observed (α : Type) where
  now : α
  before : List α

abbrev RunM (ε : Type) := StateE JobError (Observed (LiveJobs ε))

/-- What the process adds: the context of its jobs, and the queries the demo answers. -/
structure RunContext extends JobContext where
  demoMockActive : String → Bool

/-- A call of the reporters; `lost` is one that raised, which they log and swallow. -/
inductive RunReport (ε : Type)
  | stage (stage : Stage) (reportedAt : Timestamp)
  | activity (event : ε)
  | lost

/-- How the runner ends. What it raises comes with its classification at a stage; a result that is
empty or is no envelope is raised as well. -/
inductive RunnerOutcome
  | returned (envelope : APIEnvelope)
  | deadlineExceeded
  | cancelled
  | raised (classifyFailure : Stage → FailureDiagnostic)

/-- A runner with the time it was given, and whether a capacity slot came free for it. -/
structure AnalysisRun (ε : Type) where
  slotGranted : Bool
  startedAt : Timestamp
  reports : List (RunReport ε)
  outcome : RunnerOutcome
  endedAt : Timestamp

def buildDemoMockEnvelope (traceId : String) : APIEnvelope where
  status := .ready
  traceId := if traceId = "" then "demo-mock-trace" else traceId
  userPayload := {
    headline := "전략 분석이 완료되었습니다."
    message := "거래량 급증 모멘텀 로테이션 전략이 백테스트 검증을 통과했습니다. " ++
      "2021–2024년 누적 +163%, 샤프 2.18, 최대낙폭 -9.8%로 KOSPI 200(+29%)을 크게 상회했습니다."
    nextActions := ["수익률 탭에서 성과·누적곡선 확인", "이메일로 리포트 전송", "실거래 전 데이터 어댑터 연결"]
    hasReport := true }
  strategySpec := some "vsm_rotation"
  debugRef := "demo:vsm_rotation"
  retryable := false
  failureCause := none

def JOB_DEADLINE_MESSAGE := "분석이 허용된 시간을 넘겨 중단되었습니다. 조건을 좁혀 다시 시도해 주세요."

def USER_CANCELLED_MESSAGE := "사용자가 분석을 중단했습니다."

def CAPACITY_TIMEOUT_MESSAGE := "분석 대기열이 가득 차 시간 안에 실행하지 못했습니다. 잠시 후 다시 시도해 주세요."

def deadlineFailure (stage : Stage) : FailureDiagnostic where
  category := "cancelled"
  subcause := "job_deadline_exceeded"
  failureStage := stage
  owner := "ai_graph"
  retryable := true
  safeMessage := JOB_DEADLINE_MESSAGE
  evidenceRefs := ["failure:job_deadline"]

def cancelledFailure (stage : Stage) : FailureDiagnostic where
  category := "cancelled"
  subcause := "user_cancelled"
  failureStage := stage
  owner := "user"
  retryable := true
  safeMessage := USER_CANCELLED_MESSAGE
  evidenceRefs := ["failure:cancelled"]

namespace RunM

/-- A change that can be seen. -/
def effect (f : LiveJobs ε → LiveJobs ε) : RunM ε Unit :=
  modify fun o => ⟨f o.now, o.now :: o.before⟩

def getJob (jobId : JobId) : RunM ε (Option AnalysisJob) := do
  return (← get).now.store.getJob jobId

/-- `update_job_status`, `complete_job` or `fail_job`. -/
def write (ctx : RunContext) (jobId : JobId) (w : JobWrite) (now : Timestamp) :
    RunM ε AnalysisJob := do
  match ← getJob jobId with
  | none => throw (.keyError ("analysis job not found: " ++ jobId))
  | some job =>
    match w.apply ctx.toJobContext job now with
    | .error e => throw e
    | .ok job =>
      effect fun jobs => { jobs with store := jobs.store.saveJob jobId job }
      return job

def publish (jobId : JobId) (event : LiveEvent ε) : RunM ε Unit :=
  effect fun jobs => { jobs with events := jobs.events.map (·.publish jobId event) }

def close (jobId : JobId) : RunM ε Unit :=
  effect fun jobs => { jobs with events := jobs.events.map (·.close jobId) }

/-- `try: m finally: events.close(job_id)` -/
def finallyClose (jobId : JobId) (m : RunM ε α) : RunM ε α := do
  let caught ← ExceptT.lift (ExceptT.run m)
  close jobId
  MonadExcept.ofExcept caught

def report (ctx : RunContext) (jobId : JobId) : RunReport ε → RunM ε Unit
  | .stage stage reportedAt => do
    let _ ← write ctx jobId (.updateStatus .running stage none none none) reportedAt
    publish jobId (.stage stage)
  | .activity event => publish jobId (.activity event)
  | .lost => pure ()

end RunM

section
open RunM
variable (ctx : RunContext) (jobId : JobId)

/-- The outcome of a run that raised, inside the `try`. -/
def settleFailure (job : AnalysisJob) (diagnose : Stage → FailureDiagnostic) (endedAt : Timestamp) :
    RunM ε AnalysisJob := do
  let stage := ((← getJob jobId).getD job).pollingStage
  let cause := diagnose stage
  if ctx.demoMockActive job.query then
    write ctx jobId (.complete (buildDemoMockEnvelope job.traceId) none) endedAt
  else write ctx jobId (.fail cause.safeMessage none (some (job.failureEnvelope (some cause)))) endedAt

def runAnalysisJob (run : AnalysisRun ε) : RunM ε AnalysisJob := do
  match ← getJob jobId with
  | none => throw (.keyError ("analysis job not found: " ++ jobId))
  | some job =>
    let _ ← write ctx jobId (.updateStatus .running .interpreting none none none) run.startedAt
    run.reports.forM (report ctx jobId)
    match run.outcome with
    | .returned envelope =>
      close jobId
      let result :=
        if ctx.demoMockActive job.query then
          buildDemoMockEnvelope (if envelope.traceId = "" then job.traceId else envelope.traceId)
        else envelope
      write ctx jobId (.complete result none) run.endedAt
    | .deadlineExceeded =>
      finallyClose jobId (settleFailure ctx jobId job deadlineFailure run.endedAt)
    | .cancelled =>
      finallyClose jobId (settleFailure ctx jobId job cancelledFailure run.endedAt)
    | .raised classifyFailure =>
      finallyClose jobId (settleFailure ctx jobId job classifyFailure run.endedAt)

def runJobSync (run : AnalysisRun ε) : RunM ε AnalysisJob :=
  if run.slotGranted then runAnalysisJob ctx jobId run
  else do
    match ← getJob jobId with
    | none => throw (.keyError ("analysis job not found: " ++ jobId))
    | some job =>
      if ctx.demoMockActive job.query then
        write ctx jobId (.complete (buildDemoMockEnvelope job.traceId) none) run.endedAt
      else write ctx jobId (.fail CAPACITY_TIMEOUT_MESSAGE none none) run.endedAt

end

/-- A reader of the live events is told that the job is done. -/
def LiveJobs.Closed (jobs : LiveJobs ε) (jobId : JobId) : Prop :=
  ∃ buffer, jobs.events = some buffer ∧ jobId ∈ buffer.closed

def LiveJobs.Terminal (jobs : LiveJobs ε) (jobId : JobId) : Prop :=
  ∃ job, jobs.store.getJob jobId = some job ∧ job.status.terminal = true

/-- The run has ended the job and its stream, and never the stream before the job. -/
structure EndsClosedAndTerminal (jobId : JobId) (o : Observed (LiveJobs ε)) : Prop where
  terminal : o.now.Terminal jobId
  closed : ∀ buffer, o.now.events = some buffer → jobId ∈ buffer.closed
  ordered : ∀ jobs ∈ o.now :: o.before, jobs.Closed jobId → jobs.Terminal jobId

/-- The job is there, and its stream is closed neither too early nor not at all. -/
def AnalysisRun.Orderly (run : AnalysisRun ε) (ctx : RunContext) (jobId : JobId)
    (jobs : LiveJobs ε) : Prop :=
  ∃ job, jobs.store.getJob jobId = some job ∧
    let demoReconciles := ctx.demoMockActive job.query = true →
      ctx.ledgerReconciles (buildDemoMockEnvelope job.traceId) = true
    if run.slotGranted then
      match run.outcome with
      | .returned envelope =>
        jobs.events = none ∧ ctx.ledgerReconciles
          (if ctx.demoMockActive job.query then
            buildDemoMockEnvelope (if envelope.traceId = "" then job.traceId else envelope.traceId)
          else envelope) = true
      | _ => ¬jobs.Closed jobId ∧ demoReconciles
    else
      (jobs.events = none ∨ jobs.Closed jobId ∧ job.status.terminal = true) ∧
        (demoReconciles ∨ job.status.terminal = true)

/-- The job has been saved once more, with an outcome. -/
def Settles (jobId : JobId) (o o' : Observed (LiveJobs ε)) : Prop :=
  ∃ job : AnalysisJob, job.status.terminal = true ∧
    o' = ⟨{ o.now with store := o.now.store.saveJob jobId job }, o.now :: o.before⟩

namespace RunM
variable {ctx : RunContext} {jobId : JobId} {o : Observed (LiveJobs ε)}

theorem exec_getJob : (getJob jobId).exec o = (.ok (o.now.store.getJob jobId), o) := rfl

theorem exec_effect (f : LiveJobs ε → LiveJobs ε) :
    (effect f).exec o = (.ok (), ⟨f o.now, o.now :: o.before⟩) := rfl

theorem exec_write (hjob : o.now.store.getJob jobId = some job)
    (hw : w.apply ctx.toJobContext job now = .ok job') :
    (write ctx jobId w now).exec o =
      (.ok job', ⟨{ o.now with store := o.now.store.saveJob jobId job' }, o.now :: o.before⟩) := by
  rw [write, StateE.exec_bind_ok exec_getJob, hjob]
  simp only [hw]
  rfl

theorem exec_write_error (hjob : o.now.store.getJob jobId = some job)
    (hw : w.apply ctx.toJobContext job now = .error e) :
    (write ctx jobId w now).exec o = (.error e, o) := by
  rw [write, StateE.exec_bind_ok exec_getJob, hjob]
  simp only [hw]
  rfl

theorem exec_finallyClose (m : RunM ε α) :
    (finallyClose jobId m).exec o = ((m.exec o).1, ((close jobId).exec (m.exec o).2).2) := by
  have hcaught : StateE.exec (ExceptT.lift (ExceptT.run m)) o =
      ((Except.ok (m.exec o).1 : Except JobError (Except JobError α)), (m.exec o).2) := rfl
  rw [finallyClose, StateE.exec_bind_ok hcaught, close, StateE.exec_bind_ok (exec_effect _)]
  cases (m.exec o).1 with
  | error e => rfl
  | ok a => rfl

theorem write_complete (hjob : o.now.store.getJob jobId = some job)
    (hledger : ctx.ledgerReconciles envelope = true) :
    Settles jobId o ((write ctx jobId (.complete envelope none) now).exec o).2 := by
  have hok : ∃ job', (JobWrite.complete envelope none).apply ctx.toJobContext job now = .ok job' := by
    simp only [JobWrite.apply, AnalysisJob.completeJob, if_pos hledger]
    exact ⟨_, rfl⟩
  obtain ⟨job', hw⟩ := hok
  rw [exec_write hjob hw]
  refine ⟨job', ?_, rfl⟩
  rw [(JobWrite.apply_ok hw).2.1]
  rfl

theorem write_complete_unreconciled (hjob : o.now.store.getJob jobId = some job)
    (hledger : ¬ctx.ledgerReconciles envelope = true) :
    ((write ctx jobId (.complete envelope none) now).exec o).2 = o := by
  have hw : (JobWrite.complete envelope none).apply ctx.toJobContext job now =
      .error (.ledgerMismatch "storage execution ledger count/hash reconciliation failed.") := by
    simp only [JobWrite.apply, AnalysisJob.completeJob, if_neg hledger]
  rw [exec_write_error hjob hw]

theorem write_fail (hjob : o.now.store.getJob jobId = some job) :
    Settles jobId o ((write ctx jobId (.fail message none envelope) now).exec o).2 := by
  rw [exec_write hjob rfl]
  exact ⟨_, rfl, rfl⟩

theorem settleFailure_settles (hjob : o.now.store.getJob jobId = some current)
    (hdemo : ctx.demoMockActive job.query = true →
      ctx.ledgerReconciles (buildDemoMockEnvelope job.traceId) = true) :
    Settles jobId o ((settleFailure ctx jobId job diagnose endedAt).exec o).2 := by
  rw [settleFailure, StateE.exec_bind_ok exec_getJob]
  by_cases hactive : ctx.demoMockActive job.query = true
  · simp only [if_pos hactive]
    exact write_complete hjob (hdemo hactive)
  · simp only [if_neg hactive]
    exact write_fail hjob

theorem settleFailure_unreconciled (hjob : o.now.store.getJob jobId = some current)
    (hactive : ctx.demoMockActive job.query = true)
    (hledger : ¬ctx.ledgerReconciles (buildDemoMockEnvelope job.traceId) = true) :
    ((settleFailure ctx jobId job diagnose endedAt).exec o).2 = o := by
  rw [settleFailure, StateE.exec_bind_ok exec_getJob]
  simp only [if_pos hactive]
  exact write_complete_unreconciled hjob hledger

end RunM

/-- The job runs, and no change so far has closed or opened its stream. -/
structure Running (jobId : JobId) (jobs : LiveJobs ε) (o : Observed (LiveJobs ε)) : Prop where
  running : ∃ job, o.now.store.getJob jobId = some job ∧ job.status.terminal = false
  events : o.now.events.map (·.closed) = jobs.events.map (·.closed)
  unclosed : ¬jobs.Closed jobId → ∀ before ∈ o.before, ¬before.Closed jobId

namespace Running
variable {ctx : RunContext} {jobId : JobId} {jobs : LiveJobs ε} {o : Observed (LiveJobs ε)}

theorem closed_congr {jobs jobs' : LiveJobs ε}
    (h : jobs'.events.map (·.closed) = jobs.events.map (·.closed)) :
    jobs'.Closed jobId ↔ jobs.Closed jobId := by
  unfold LiveJobs.Closed
  cases hj : jobs.events with
  | none =>
    rw [hj, Option.map_none, Option.map_eq_none_iff] at h
    simp [h]
  | some buffer =>
    rw [hj, Option.map_some, Option.map_eq_some_iff] at h
    obtain ⟨buffer', hj', hclosed⟩ := h
    simp [hj', hclosed]

theorem now_closed (h : Running jobId jobs o) : o.now.Closed jobId ↔ jobs.Closed jobId :=
  closed_congr h.events

theorem publish (h : Running jobId jobs o) (event : LiveEvent ε) :
    Running jobId jobs ((RunM.publish jobId event).exec o).2 := by
  rw [RunM.publish, RunM.exec_effect]
  refine ⟨h.running, ?_, ?_⟩
  · rw [← h.events, Option.map_map]
    congr 1
    funext buffer
    exact JobEventBuffer.publish_closed ..
  · intro hopen before hmem
    obtain rfl | hmem := List.mem_cons.mp hmem
    · exact fun hclosed => hopen (h.now_closed.mp hclosed)
    · exact h.unclosed hopen before hmem

/-- A status update that keeps the job running. -/
theorem update (ctx : RunContext) (h : o.now.store.getJob jobId = some job) (hevents : o.now.events.map (·.closed) =
      jobs.events.map (·.closed))
    (hopen : ¬jobs.Closed jobId → ∀ before ∈ o.before, ¬before.Closed jobId) (stage : Stage)
    (now : Timestamp) : Running jobId jobs ((RunM.write ctx jobId
      (.updateStatus .running stage none none none) now).exec o).2 := by
  rw [RunM.exec_write h rfl]
  refine ⟨⟨_, (AnalysisJobStore.getJob_saveJob ..).trans (if_pos rfl), rfl⟩, hevents, ?_⟩
  intro hnot before hmem
  obtain rfl | hmem := List.mem_cons.mp hmem
  · exact fun hclosed => hnot ((closed_congr hevents).mp hclosed)
  · exact hopen hnot before hmem

theorem report (ctx : RunContext) (h : Running jobId jobs o) (r : RunReport ε) :
    ∃ o', (RunM.report ctx jobId r).exec o = (.ok (), o') ∧ Running jobId jobs o' := by
  cases r with
  | stage stage reportedAt =>
    obtain ⟨job, hjob, -⟩ := h.running
    have hwritten := update ctx hjob h.events h.unclosed stage reportedAt
    rw [RunM.exec_write hjob rfl] at hwritten
    refine ⟨_, ?_, hwritten.publish (.stage stage)⟩
    rw [RunM.report, StateE.exec_bind_ok (RunM.exec_write hjob rfl)]
    rfl
  | activity event => exact ⟨_, rfl, h.publish (.activity event)⟩
  | lost => exact ⟨o, rfl, h⟩

theorem reports (ctx : RunContext) (h : Running jobId jobs o) (reports : List (RunReport ε)) :
    ∃ o', (reports.forM (RunM.report ctx jobId)).exec o = (.ok (), o') ∧ Running jobId jobs o' := by
  induction reports generalizing o with
  | nil => exact ⟨o, rfl, h⟩
  | cons r reports ih =>
    obtain ⟨o₁, hr, hrunning⟩ := h.report ctx r
    obtain ⟨o₂, hreports, hend⟩ := ih hrunning
    refine ⟨o₂, ?_, hend⟩
    rw [List.forM_eq_forM, List.forM_cons, StateE.exec_bind_ok hr]
    exact hreports

theorem not_terminal (h : Running jobId jobs o) : ¬o.now.Terminal jobId := by
  obtain ⟨job, hjob, hrunning⟩ := h.running
  rintro ⟨job', hjob', hterminal⟩
  rw [hjob, Option.some.injEq] at hjob'
  rw [hjob', hterminal] at hrunning
  cases hrunning

theorem events_none (h : Running jobId jobs o) : o.now.events = none ↔ jobs.events = none := by
  have hevents := congrArg Option.isNone h.events
  rw [Option.isNone_map, Option.isNone_map] at hevents
  rw [← Option.isNone_iff_eq_none, hevents, Option.isNone_iff_eq_none]

/-- A failure is settled before the stream is closed. -/
theorem finallyClose_settles (h : Running jobId jobs o) {m : RunM ε α}
    (hm : Settles jobId o (m.exec o).2) :
    EndsClosedAndTerminal jobId ((RunM.finallyClose jobId m).exec o).2 ↔ ¬jobs.Closed jobId := by
  obtain ⟨job, hterminal, ho⟩ := hm
  rw [RunM.exec_finallyClose, ho, RunM.close, RunM.exec_effect]
  have hsaved : (o.now.store.saveJob jobId job).getJob jobId = some job := by
    rw [AnalysisJobStore.getJob_saveJob, if_pos rfl]
  constructor
  · intro hend hclosed
    refine h.not_terminal (hend.ordered o.now ?_ (h.now_closed.mpr hclosed))
    simp
  · intro hopen
    refine ⟨⟨job, hsaved, hterminal⟩, ?_, ?_⟩
    · intro buffer hbuffer
      obtain ⟨buffer', -, rfl⟩ := Option.map_eq_some_iff.mp hbuffer
      exact buffer'.mem_close jobId
    · intro before hmem hclosed
      simp only [List.mem_cons] at hmem
      obtain rfl | rfl | rfl | hmem := hmem
      · exact ⟨job, hsaved, hterminal⟩
      · exact ⟨job, hsaved, hterminal⟩
      · exact absurd (h.now_closed.mp hclosed) hopen
      · exact absurd hclosed (h.unclosed hopen before hmem)

/-- A failure that cannot be settled leaves the job running. -/
theorem finallyClose_unsettled (h : Running jobId jobs o) {m : RunM ε α} (hm : (m.exec o).2 = o) :
    ¬EndsClosedAndTerminal jobId ((RunM.finallyClose jobId m).exec o).2 := by
  rw [RunM.exec_finallyClose, hm, RunM.close, RunM.exec_effect]
  exact fun hend => h.not_terminal hend.terminal

theorem failure_ends (h : Running jobId jobs o) :
    EndsClosedAndTerminal jobId
        ((RunM.finallyClose jobId (settleFailure ctx jobId job diagnose endedAt)).exec o).2 ↔
      ¬jobs.Closed jobId ∧ (ctx.demoMockActive job.query = true →
        ctx.ledgerReconciles (buildDemoMockEnvelope job.traceId) = true) := by
  obtain ⟨current, hcurrent, -⟩ := h.running
  by_cases hdemo : ctx.demoMockActive job.query = true →
      ctx.ledgerReconciles (buildDemoMockEnvelope job.traceId) = true
  · rw [h.finallyClose_settles (RunM.settleFailure_settles hcurrent hdemo)]
    exact (and_iff_left hdemo).symm
  · obtain ⟨hactive, hledger⟩ := Classical.not_imp.mp hdemo
    have hunsettled : ¬EndsClosedAndTerminal jobId
        ((RunM.finallyClose jobId (settleFailure ctx jobId job diagnose endedAt)).exec o).2 :=
      h.finallyClose_unsettled (RunM.settleFailure_unreconciled hcurrent hactive hledger)
    exact ⟨fun hend => absurd hend hunsettled, fun hboth => absurd hboth.2 hdemo⟩

/-- A result is written after the stream is closed. -/
theorem success_ends (h : Running jobId jobs o) :
    EndsClosedAndTerminal jobId
        ((do RunM.close jobId; RunM.write ctx jobId (.complete result none) endedAt).exec o).2 ↔
      jobs.events = none ∧ ctx.ledgerReconciles result = true := by
  rw [RunM.close, StateE.exec_bind_ok (RunM.exec_effect _)]
  obtain ⟨current, hcurrent, -⟩ := h.running
  generalize ho' : (⟨{ o.now with events := o.now.events.map (·.close jobId) }, o.now :: o.before⟩ :
    Observed (LiveJobs ε)) = o'
  have hjob' : o'.now.store.getJob jobId = some current := by
    rw [← ho']
    exact hcurrent
  have hrunning' : ¬o'.now.Terminal jobId := by
    rw [← ho']
    exact h.not_terminal
  constructor
  · intro hend
    have hledger : ctx.ledgerReconciles result = true := by
      by_contra hledger
      rw [RunM.write_complete_unreconciled hjob' hledger] at hend
      exact hrunning' hend.terminal
    refine ⟨?_, hledger⟩
    obtain ⟨job, -, hsettled⟩ : Settles jobId o'
        ((RunM.write ctx jobId (.complete result none) endedAt).exec o').2 :=
      RunM.write_complete hjob' hledger
    rw [hsettled] at hend
    have hopen : ¬o'.now.Closed jobId := by
      intro hclosed
      exact hrunning' (hend.ordered o'.now (by simp) hclosed)
    rw [← h.events_none]
    cases hevents : o.now.events with
    | none => rfl
    | some buffer =>
      refine absurd ⟨buffer.close jobId, ?_, buffer.mem_close jobId⟩ hopen
      rw [← ho', hevents]
      rfl
  · rintro ⟨hnone, hledger⟩
    obtain ⟨job, hterminal, hsettled⟩ : Settles jobId o'
        ((RunM.write ctx jobId (.complete result none) endedAt).exec o').2 :=
      RunM.write_complete hjob' hledger
    have hevents : o.now.events = none := h.events_none.mpr hnone
    have hopen : ¬jobs.Closed jobId := by
      rintro ⟨buffer, hbuffer, -⟩
      rw [hnone] at hbuffer
      cases hbuffer
    have hterminal' : (o'.now.store.saveJob jobId job).getJob jobId = some job := by
      rw [AnalysisJobStore.getJob_saveJob, if_pos rfl]
    rw [hsettled, ← ho']
    rw [← ho'] at hterminal'
    refine ⟨⟨job, hterminal', hterminal⟩, ?_, ?_⟩
    · intro buffer hbuffer
      rw [hevents] at hbuffer
      cases hbuffer
    · rintro before hmem ⟨buffer, hbuffer, hclosed⟩
      simp only [List.mem_cons] at hmem
      obtain rfl | rfl | rfl | hmem := hmem
      · exact ⟨job, hterminal', hterminal⟩
      · rw [hevents] at hbuffer
        cases hbuffer
      · rw [hevents] at hbuffer
        cases hbuffer
      · exact absurd ⟨buffer, hbuffer, hclosed⟩ (h.unclosed hopen before hmem)

end Running

section
variable {ctx : RunContext} {jobId : JobId} {jobs : LiveJobs ε}

/-- A run that never got its slot leaves the stream as it was. -/
theorem Settles.ends_iff (h : Settles jobId ⟨jobs, []⟩ o)
    (hjob : jobs.store.getJob jobId = some job) :
    EndsClosedAndTerminal jobId o ↔
      jobs.events = none ∨ jobs.Closed jobId ∧ job.status.terminal = true := by
  obtain ⟨saved, hterminal, rfl⟩ := h
  have hsaved : (jobs.store.saveJob jobId saved).getJob jobId = some saved := by
    rw [AnalysisJobStore.getJob_saveJob, if_pos rfl]
  constructor
  · intro hend
    cases hevents : jobs.events with
    | none => exact .inl rfl
    | some buffer =>
      have hclosed : jobs.Closed jobId := ⟨buffer, hevents, hend.closed buffer hevents⟩
      obtain ⟨job', hjob', hterminal'⟩ := hend.ordered jobs (by simp) hclosed
      rw [hjob, Option.some.injEq] at hjob'
      exact .inr ⟨hclosed, hjob' ▸ hterminal'⟩
  · intro hstart
    refine ⟨⟨saved, hsaved, hterminal⟩, ?_, ?_⟩
    · intro buffer hbuffer
      obtain hnone | ⟨⟨buffer', hbuffer', hclosed⟩, -⟩ := hstart
      · exact absurd (hnone.symm.trans hbuffer) nofun
      · obtain rfl := Option.some.inj (hbuffer'.symm.trans hbuffer)
        exact hclosed
    · rintro before hmem ⟨buffer, hbuffer, -⟩
      simp only [List.mem_cons, List.not_mem_nil, or_false] at hmem
      obtain rfl | rfl := hmem
      · exact ⟨saved, hsaved, hterminal⟩
      · obtain hnone | ⟨-, hdone⟩ := hstart
        · exact absurd (hnone.symm.trans hbuffer) nofun
        · exact ⟨job, hjob, hdone⟩

theorem untouched_ends_iff (hjob : jobs.store.getJob jobId = some job) :
    EndsClosedAndTerminal jobId ⟨jobs, []⟩ ↔
      (jobs.events = none ∨ jobs.Closed jobId ∧ job.status.terminal = true) ∧
        job.status.terminal = true := by
  constructor
  · intro hend
    obtain ⟨job', hjob', hterminal⟩ := hend.terminal
    obtain rfl := Option.some.inj (hjob.symm.trans hjob')
    refine ⟨?_, hterminal⟩
    cases hevents : jobs.events with
    | none => exact .inl rfl
    | some buffer => exact .inr ⟨⟨buffer, hevents, hend.closed buffer hevents⟩, hterminal⟩
  · rintro ⟨hstart, hterminal⟩
    refine ⟨⟨job, hjob, hterminal⟩, ?_, ?_⟩
    · intro buffer hbuffer
      obtain hnone | ⟨⟨buffer', hbuffer', hclosed⟩, -⟩ := hstart
      · exact absurd (hnone.symm.trans hbuffer) nofun
      · obtain rfl := Option.some.inj (hbuffer'.symm.trans hbuffer)
        exact hclosed
    · intro before hmem _
      obtain rfl := List.mem_singleton.mp hmem
      exact ⟨job, hjob, hterminal⟩

theorem capacityTimeout_ends {run : AnalysisRun ε} (hslot : ¬run.slotGranted = true)
    (hjob : jobs.store.getJob jobId = some job) :
    EndsClosedAndTerminal jobId ((runJobSync ctx jobId run).exec ⟨jobs, []⟩).2 ↔
      (jobs.events = none ∨ jobs.Closed jobId ∧ job.status.terminal = true) ∧
        ((ctx.demoMockActive job.query = true →
          ctx.ledgerReconciles (buildDemoMockEnvelope job.traceId) = true) ∨
            job.status.terminal = true) := by
  have hfound : (⟨jobs, []⟩ : Observed (LiveJobs ε)).now.store.getJob jobId = some job := hjob
  rw [runJobSync, if_neg hslot, StateE.exec_bind_ok RunM.exec_getJob]
  simp only [hjob]
  by_cases hactive : ctx.demoMockActive job.query = true
  · by_cases hledger : ctx.ledgerReconciles (buildDemoMockEnvelope job.traceId) = true
    · simp only [if_pos hactive]
      rw [(RunM.write_complete hfound hledger).ends_iff hjob]
      simp [hledger]
    · simp only [if_pos hactive]
      rw [RunM.write_complete_unreconciled hfound hledger, untouched_ends_iff hjob]
      simp [hactive, hledger]
  · simp only [if_neg hactive]
    rw [(RunM.write_fail hfound).ends_iff hjob]
    simp [hactive]

theorem granted_ends {run : AnalysisRun ε} (hslot : run.slotGranted = true)
    (hjob : jobs.store.getJob jobId = some job) :
    EndsClosedAndTerminal jobId ((runJobSync ctx jobId run).exec ⟨jobs, []⟩).2 ↔
      match run.outcome with
      | .returned envelope =>
        jobs.events = none ∧ ctx.ledgerReconciles
          (if ctx.demoMockActive job.query then
            buildDemoMockEnvelope (if envelope.traceId = "" then job.traceId else envelope.traceId)
          else envelope) = true
      | _ => ¬jobs.Closed jobId ∧ (ctx.demoMockActive job.query = true →
          ctx.ledgerReconciles (buildDemoMockEnvelope job.traceId) = true) := by
  have hfound : (⟨jobs, []⟩ : Observed (LiveJobs ε)).now.store.getJob jobId = some job := hjob
  have hstart : Running jobId jobs ((RunM.write ctx jobId
      (.updateStatus .running .interpreting none none none) run.startedAt).exec ⟨jobs, []⟩).2 :=
    .update ctx hfound rfl (fun _ _ hmem => absurd hmem List.not_mem_nil) .interpreting run.startedAt
  rw [RunM.exec_write hfound rfl] at hstart
  obtain ⟨o, hreports, hrunning⟩ := hstart.reports ctx run.reports
  rw [runJobSync, if_pos hslot, runAnalysisJob, StateE.exec_bind_ok RunM.exec_getJob]
  simp only [hjob]
  rw [StateE.exec_bind_ok (RunM.exec_write hfound rfl), StateE.exec_bind_ok hreports]
  cases run.outcome with
  | returned envelope => exact hrunning.success_ends
  | deadlineExceeded => exact hrunning.failure_ends
  | cancelled => exact hrunning.failure_ends
  | raised classifyFailure => exact hrunning.failure_ends

theorem missing_ends (run : AnalysisRun ε) (hjob : jobs.store.getJob jobId = none) :
    ¬EndsClosedAndTerminal jobId ((runJobSync ctx jobId run).exec ⟨jobs, []⟩).2 := by
  have hmissing : ((runJobSync ctx jobId run).exec ⟨jobs, []⟩).2 = ⟨jobs, []⟩ := by
    by_cases hslot : run.slotGranted = true
    · rw [runJobSync, if_pos hslot, runAnalysisJob, StateE.exec_bind_ok RunM.exec_getJob]
      simp only [hjob]
      rfl
    · rw [runJobSync, if_neg hslot, StateE.exec_bind_ok RunM.exec_getJob]
      simp only [hjob]
      rfl
  intro hend
  rw [hmissing] at hend
  obtain ⟨job, hfound, -⟩ := hend.terminal
  exact absurd (hjob.symm.trans hfound) nofun

def plainRunContext : RunContext := { JobSystem.plainContext with demoMockActive _ := false }

/-- A queued job whose stream is open. -/
def queuedJobs : LiveJobs Unit :=
  ⟨JobSystem.queuedSystem.store, some (.new JobEventBuffer.DEFAULT_MAX_EVENTS_PER_JOB)⟩

theorem queuedJobs_open : ¬queuedJobs.Closed jobId := by
  rintro ⟨buffer, hbuffer, hclosed⟩
  obtain rfl := Option.some.inj hbuffer
  exact absurd hclosed List.not_mem_nil

end
end QuantAgent
