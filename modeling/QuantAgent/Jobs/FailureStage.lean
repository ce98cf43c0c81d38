import QuantAgent.Jobs.Finality

namespace QuantAgent
set_option autoImplicit true

/-- A call of `report_stage`: the job is marked running at the stage. -/
structure StageReport where
  stage : Stage
  reportedAt : Timestamp
deriving DecidableEq

/-- The stage a job has reached after its reports. -/
def Stage.reached (first : Stage) (reports : List StageReport) : Stage :=
  reports.foldl (fun _ report => report.stage) first

/-- A failed job blames the stage, and reports no other one as succeeded than those before it. -/
structure AnalysisJob.FailedAt (job : AnalysisJob) (stage : Stage) : Prop where
  status : job.status = .failed
  failureStage : ∃ result cause, job.result = some result ∧ result.failureCause = some cause ∧
    cause.failureStage = stage
  succeeded : ∀ progress ∈ job.stages, progress.status = .succeeded →
    Stage.order.idxOf progress.stage < Stage.order.idxOf stage

/-- With no envelope the cause is classified anew, for a run that was finalizing. -/
theorem AnalysisJob.failJob_failureStage (job : AnalysisJob) (errorMessage : String)
    (fallbackReasons : Option (List String)) (failedAt : Timestamp) :
    ∃ result, (job.failJob errorMessage fallbackReasons none failedAt).result = some result ∧
      result.failureCause = some (unknownFailure .finalizing) :=
  ⟨_, rfl, rfl⟩

/-- Of a failed job, only the stages before the polling stage have succeeded. -/
theorem stageProgresses_failed_succeeded (pollingStage : Stage) (updatedAt : Timestamp)
    (message : Option String) : ∀ progress ∈ stageProgresses pollingStage .failed updatedAt message,
      progress.status = .succeeded →
        Stage.order.idxOf progress.stage < Stage.order.idxOf pollingStage := by
  intro progress hprogress hsucceeded
  have hindex : ∀ entry ∈ Stage.order.zipIdx, entry.2 = Stage.order.idxOf entry.1 := by decide
  simp only [stageProgresses, List.mem_map] at hprogress
  obtain ⟨⟨stage, index⟩, hmem, rfl⟩ := hprogress
  have hstage := hindex _ hmem
  simp only at hstage hsucceeded ⊢
  rw [← hstage]
  by_contra hlt
  rw [stageStatusFor, if_neg hlt] at hsucceeded
  by_cases hsame : index = Stage.order.idxOf pollingStage
  · rw [if_pos hsame] at hsucceeded
    cases hsucceeded
  · rw [if_neg hsame] at hsucceeded
    cases hsucceeded

theorem AnalysisJob.failJob_failedAt_iff (job : AnalysisJob) (errorMessage : String)
    (fallbackReasons : Option (List String)) (failedAt : Timestamp) (stage : Stage) :
    (job.failJob errorMessage fallbackReasons none failedAt).FailedAt stage ↔
      stage = .finalizing := by
  constructor
  · intro h
    obtain ⟨result, cause, hresult, hcause, hstage⟩ := h.failureStage
    obtain ⟨result', hresult', hcause'⟩ :=
      job.failJob_failureStage errorMessage fallbackReasons failedAt
    rw [hresult', Option.some.injEq] at hresult
    subst hresult
    rw [hcause', Option.some.injEq] at hcause
    rw [← hstage, ← hcause]
    rfl
  · rintro rfl
    exact ⟨rfl, ⟨_, _, rfl, rfl, rfl⟩,
      stageProgresses_failed_succeeded .finalizing failedAt (some errorMessage)⟩

namespace JobSystem
variable {κ : Type u} [DecidableEq κ] (mode : StoreMode) (ctx : JobContext)

/-- A runner reports the stages of its job one after the other. -/
def reportStages (call : κ) (jobId : JobId) (reports : List StageReport) : List (JobAction κ) :=
  reports.flatMap fun report =>
    [.load call jobId, .save call (.updateStatus .running report.stage none none none) report.reportedAt]

/-- `fail_job` without an envelope: the capacity timeout, the reaper and a run whose own envelope
could not be built. -/
def failWithoutEnvelope (call : κ) (jobId : JobId) (errorMessage : String)
    (fallbackReasons : Option (List String)) (failedAt : Timestamp) : List (JobAction κ) :=
  [.load call jobId, .save call (.fail errorMessage fallbackReasons none) failedAt]

theorem exec_load_save (s : JobSystem κ) (call : κ) (w : JobWrite) (now : Timestamp)
    (hjob : s.store.getJob jobId = some job) (hw : w.apply ctx job now = .ok job') :
    (s.exec mode ctx [.load call jobId, .save call w now]).store = s.store.saveJob jobId job' := by
  simp [exec, step, hjob, hw]

theorem exec_append (s : JobSystem κ) (acts more : List (JobAction κ)) :
    s.exec mode ctx (acts ++ more) = (s.exec mode ctx acts).exec mode ctx more :=
  List.foldl_append

/-- The stages reported move the polling stage and leave the job in the store. -/
theorem exec_reportStages (s : JobSystem κ) (call : κ) {jobId : JobId}
    (reports : List StageReport) (hjob : s.store.getJob jobId = some job) :
    ∃ job', (s.exec mode ctx (reportStages call jobId reports)).store.getJob jobId = some job' ∧
      job'.pollingStage = job.pollingStage.reached reports := by
  induction reports generalizing s job with
  | nil => exact ⟨job, hjob, rfl⟩
  | cons report reports ih =>
    have hstore := exec_load_save mode ctx s call
      (.updateStatus .running report.stage none none none) report.reportedAt hjob rfl
    have hnext : (s.exec mode ctx [.load call jobId,
        .save call (.updateStatus .running report.stage none none none)
          report.reportedAt]).store.getJob jobId =
        some (job.updateJobStatus .running report.stage none none none report.reportedAt) := by
      rw [hstore, AnalysisJobStore.getJob_saveJob, if_pos rfl]
    have hsplit : reportStages call jobId (report :: reports) =
        [.load call jobId, .save call (.updateStatus .running report.stage none none none)
          report.reportedAt] ++ reportStages call jobId reports := rfl
    rw [hsplit, exec_append]
    exact ih _ hnext

theorem exec_failWithoutEnvelope (s : JobSystem κ) (call : κ) {jobId : JobId}
    (reports : List StageReport) (errorMessage : String) (fallbackReasons : Option (List String))
    (failedAt : Timestamp) (hjob : s.store.getJob jobId = some job) :
    ∃ reported : AnalysisJob, (s.exec mode ctx (reportStages call jobId reports ++
      failWithoutEnvelope call jobId errorMessage fallbackReasons failedAt)).store.getJob jobId =
        some (reported.failJob errorMessage fallbackReasons none failedAt) := by
  obtain ⟨reported, hreported, -⟩ :=
    exec_reportStages mode ctx s call reports hjob
  refine ⟨reported, ?_⟩
  rw [exec_append, failWithoutEnvelope, exec_load_save _ _ _ _ _ _ hreported rfl,
    AnalysisJobStore.getJob_saveJob, if_pos rfl]

/-- A job failed without an envelope is reported where it stopped exactly when it was finalizing. -/
theorem failure_stage_iff (s : JobSystem κ) (call : κ)
    (jobId : JobId) (reports : List StageReport) (errorMessage : String)
    (fallbackReasons : Option (List String)) (failedAt : Timestamp)
    (hjob : s.store.getJob jobId = some job) :
    (∃ failed, (s.exec mode ctx (reportStages call jobId reports ++
        failWithoutEnvelope call jobId errorMessage fallbackReasons failedAt)).store.getJob jobId =
          some failed ∧ failed.FailedAt (job.pollingStage.reached reports)) ↔
      job.pollingStage.reached reports = .finalizing := by
  obtain ⟨reported, hfailed⟩ := exec_failWithoutEnvelope mode ctx s call reports
    errorMessage fallbackReasons failedAt hjob
  rw [hfailed]
  simp only [Option.some.injEq, exists_eq_left']
  exact reported.failJob_failedAt_iff errorMessage fallbackReasons failedAt _

/-- A job that has just been created. -/
def queuedSystem : JobSystem ℕ :=
  start.exec .memory plainContext [.createJob { requestText := "query" } "job_1" 0]

theorem queuedSystem_job : ∃ job, queuedSystem.store.getJob "job_1" = some job := by
  rw [← Option.isSome_iff_exists]
  decide +kernel

theorem finalizing_failure :
    ∃ failed, (queuedSystem.exec .memory plainContext (reportStages 1 "job_1" [⟨.finalizing, 1⟩] ++
      failWithoutEnvelope 1 "job_1" "error" none 2)).store.getJob "job_1" = some failed ∧
        failed.FailedAt .finalizing := by
  obtain ⟨job, hjob⟩ := queuedSystem_job
  exact (failure_stage_iff .memory plainContext queuedSystem 1 "job_1" [⟨.finalizing, 1⟩] "error" none
    2 hjob).mpr rfl

/-- The reaper finds a job whose backtest was running. -/
theorem interrupted_backtest_blamed :
    ¬∀ (mode : StoreMode) (ctx : JobContext) (s : JobSystem ℕ) (call : ℕ) (jobId : JobId)
      (job : AnalysisJob) (reports : List StageReport) (errorMessage : String)
      (fallbackReasons : Option (List String)) (failedAt : Timestamp),
      s.store.getJob jobId = some job →
        ∃ failed, (s.exec mode ctx (reportStages call jobId reports ++
          failWithoutEnvelope call jobId errorMessage fallbackReasons failedAt)).store.getJob jobId =
            some failed ∧ failed.FailedAt (job.pollingStage.reached reports) := by
  intro h
  obtain ⟨job, hjob⟩ := queuedSystem_job
  let reports : List StageReport := [⟨.interpreting, 1⟩, ⟨.codeGeneration, 2⟩, ⟨.backtest, 3⟩]
  let reasons : Option (List String) := some ["interrupted_by_restart"]
  let message := "서버가 재시작되어 분석이 중단되었습니다. 같은 요청으로 다시 실행해 주세요."
  obtain ⟨failed, hfailed, hblamed⟩ :=
    h .memory plainContext queuedSystem 1 "job_1" job reports message reasons 4 hjob
  obtain ⟨reported, hreported⟩ := exec_failWithoutEnvelope .memory plainContext queuedSystem 1 reports message reasons 4 hjob
  rw [hfailed, Option.some.injEq] at hreported
  rw [hreported] at hblamed
  have hstage : Stage.backtest = .finalizing := (reported.failJob_failedAt_iff ..).mp hblamed
  cases hstage

end JobSystem
end QuantAgent
