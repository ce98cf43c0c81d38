import QuantAgent.Jobs.Finality

namespace QuantAgent
set_option autoImplicit true

/-- Where one run of `_dispatch_analysis_job_outbox` is with its message: fetched or not, inside
`run_job_sync` waiting for a slot, holding one before and after RUNNING is stored, with the runner
at work, or past `run_job_sync`. -/
inductive DispatchPhase
  | idle
  | claimed (m : AnalysisJobOutboxMessage)
  | waiting (m : AnalysisJobOutboxMessage)
  | entered (m : AnalysisJobOutboxMessage)
  | marked (m : AnalysisJobOutboxMessage)
  | running (m : AnalysisJobOutboxMessage)
  | settling (m : AnalysisJobOutboxMessage)
  | acknowledging (m : AnalysisJobOutboxMessage)
deriving DecidableEq

namespace DispatchPhase

def message : DispatchPhase → Option AnalysisJobOutboxMessage
  | .idle => none
  | .claimed m | .waiting m | .entered m | .marked m | .running m | .settling m
  | .acknowledging m => some m

def holdsSlot : DispatchPhase → Bool
  | .entered _ | .marked _ | .running _ => true
  | _ => false

/-- The job a dispatcher has claimed and not yet marked RUNNING. -/
def unmarked : DispatchPhase → Option JobId
  | .claimed m | .waiting m | .entered m => some m.jobId
  | _ => none

/-- The job whose runner a dispatcher may still call. -/
def calling : DispatchPhase → Option JobId
  | .claimed m | .waiting m | .entered m | .marked m => some m.jobId
  | _ => none

/-- The job a dispatcher has seen leave the queue. -/
def started : DispatchPhase → Option JobId
  | .marked m | .acknowledging m => some m.jobId
  | _ => none

/-- The writes a dispatcher makes: a capacity timeout, RUNNING, a stage report, the end of a run,
and the failure of a job that `run_job_sync` left unfinished. -/
def after : DispatchPhase → JobWrite → Option DispatchPhase
  | .waiting m, .complete .. | .waiting m, .fail .. => some (.settling m)
  | .entered m, .updateStatus .running .interpreting none none none => some (.marked m)
  | .running m, .updateStatus .running _ none none none => some (.running m)
  | .running m, .complete .. | .running m, .fail .. => some (.settling m)
  | .settling m, .fail .. => some (.acknowledging m)
  | _, _ => none

end DispatchPhase

structure Dispatcher where
  phase : DispatchPhase
  copy : Option AnalysisJob
deriving DecidableEq

/-- A serving process over a store: its clock, its free capacity slots and its dispatchers, with
the runner invocations and the admitted jobs so far. -/
structure DispatchSystem (κ : Type u) where
  store : AnalysisJobStore
  incarnation : String
  now : Timestamp
  free : ℕ
  dispatcher : κ → Dispatcher
  invoked : List JobId
  admitted : List JobId

def interruptedByRestartReason : String := "interrupted_by_restart"

def interruptedByRestartMessage : String :=
  "서버가 재시작되어 분석이 중단되었습니다. 같은 요청으로 다시 실행해 주세요."

namespace AnalysisJobStore

def reapable (s : AnalysisJobStore) (incarnation : String) (job : AnalysisJob) : Bool :=
  (job.status == .queued || job.status == .running) && job.ownerIncarnation != some incarnation &&
    !(job.status == .queued && s.hasRecoverableAnalysisJobOutbox job.jobId)

def reapOne (incarnation : String) (now : Timestamp) (s : AnalysisJobStore) (job : AnalysisJob) :
    AnalysisJobStore :=
  if s.reapable incarnation job then
    s.saveJob job.jobId (job.failJob interruptedByRestartMessage
      (some (job.fallbackReasons ++ [interruptedByRestartReason])) none now)
  else s

/-- The listing is taken once, before the first job is failed. -/
def reapInterruptedJobs (s : AnalysisJobStore) (incarnation : String) (now : Timestamp) :
    AnalysisJobStore :=
  s.jobs.values.foldl (reapOne incarnation now) s

end AnalysisJobStore

inductive DispatchAction (κ : Type u)
  | tick (elapsed : ℕ)
  | registerParseToken (nonceHash userId specVersion specHash : String) (expiresAt : Timestamp)
  | admitParseBoundJob (request : AdmissionRequest) (ids : DrawnIds)
  | claim (d : κ) (locked : String → Bool)
  | fetch (d : κ)
  | acquireSlot (d : κ)
  | load (d : κ)
  | save (d : κ) (write : JobWrite)
  | invoke (d : κ)
  /-- An exception leaves `run_job_sync`. -/
  | escape (d : κ)
  | settle (d : κ)
  | acknowledge (d : κ)
  | release (d : κ)
  /-- An exception that no handler takes ends the dispatcher. -/
  | abandon (d : κ)
  /-- Analyses outside the outbox take and return slots. -/
  | occupySlot
  | vacateSlot
  | restart (incarnation : String)

namespace DispatchSystem
variable {κ : Type u} [DecidableEq κ]

def start (incarnation : String) (maxConcurrency : ℕ) : DispatchSystem κ :=
  ⟨.empty, incarnation, 0, maxConcurrency, fun _ => ⟨.idle, none⟩, [], []⟩

/-- Leaving `capacity.slot()` gives the slot back. -/
def moveTo (s : DispatchSystem κ) (d : κ) (phase : DispatchPhase) (copy : Option AnalysisJob) :
    DispatchSystem κ :=
  { s with
    free := if (s.dispatcher d).phase.holdsSlot && !phase.holdsSlot then s.free + 1 else s.free
    dispatcher := Function.update s.dispatcher d ⟨phase, copy⟩ }

def step (mode : StoreMode) (ctx : JobContext) (maxConcurrency : ℕ) (s : DispatchSystem κ) :
    DispatchAction κ → DispatchSystem κ
  | .tick elapsed => { s with now := s.now + elapsed }
  | .registerParseToken nonceHash userId specVersion specHash expiresAt =>
    { s with
      store := s.store.registerParseToken nonceHash userId specVersion specHash expiresAt }
  | .admitParseBoundJob request ids =>
    let r := s.store.admitParseBoundJob { ctx with incarnation := s.incarnation } request ids s.now
    match r.2 with
    | .ok ⟨job, true, _⟩ => { s with store := r.1, admitted := job.jobId :: s.admitted }
    | _ => { s with store := r.1 }
  | .claim d locked =>
    match (s.dispatcher d).phase with
    | .idle =>
      let r := s.store.claimAnalysisJobOutbox locked 1 s.now
      match r.2 with
      | [] => s
      | m :: _ => { s with store := r.1 }.moveTo d (.claimed m) none
    | _ => s
  | .fetch d =>
    match (s.dispatcher d).phase with
    | .claimed m =>
      match s.store.getJob m.jobId with
      | none =>
        { s with store := s.store.releaseAnalysisJobOutbox m.outboxId }.moveTo d .idle none
      | some _ => s.moveTo d (.waiting m) none
    | _ => s
  | .acquireSlot d =>
    match (s.dispatcher d).phase with
    | .waiting m => if s.free = 0 then s else { s with free := s.free - 1 }.moveTo d (.entered m) none
    | _ => s
  | .load d =>
    match (s.dispatcher d).phase with
    | .idle => s
    | phase => s.moveTo d phase (phase.message.bind fun m => s.store.getJob m.jobId)
  | .save d write =>
    match (s.dispatcher d).phase.message, (s.dispatcher d).copy, (s.dispatcher d).phase.after write with
    | some m, some job, some next =>
      match write.apply ctx job s.now with
      | .ok job => { s with store := s.store.saveJob m.jobId job }.moveTo d next none
      | .error _ => s.moveTo d (.settling m) none
    | _, _, _ => s
  | .invoke d =>
    match (s.dispatcher d).phase with
    | .marked m => { s with invoked := m.jobId :: s.invoked }.moveTo d (.running m) none
    | _ => s
  | .escape d =>
    match (s.dispatcher d).phase with
    | .waiting m | .entered m | .marked m | .running m => s.moveTo d (.settling m) none
    | _ => s
  | .settle d =>
    match (s.dispatcher d).phase with
    | .settling m =>
      match s.store.getJob m.jobId with
      | some job => if job.status.terminal then s.moveTo d (.acknowledging m) none else s
      | none => s
    | _ => s
  | .acknowledge d =>
    match (s.dispatcher d).phase with
    | .acknowledging m =>
      { s with store := s.store.markAnalysisJobOutboxDelivered m.outboxId }.moveTo d .idle none
    | _ => s
  | .release d =>
    match (s.dispatcher d).phase with
    | .settling m | .acknowledging m =>
      { s with store := s.store.releaseAnalysisJobOutbox m.outboxId }.moveTo d .idle none
    | _ => s
  | .abandon d =>
    match (s.dispatcher d).phase with
    | .claimed _ | .settling _ | .acknowledging _ => s.moveTo d .idle none
    | _ => s
  | .occupySlot => if s.free = 0 then s else { s with free := s.free - 1 }
  | .vacateSlot => { s with free := s.free + 1 }
  | .restart incarnation =>
    let store := match mode with
      | .memory => .empty
      | .persistent => s.store.reapInterruptedJobs incarnation s.now
    { s with store, incarnation, free := maxConcurrency, dispatcher := fun _ => ⟨.idle, none⟩ }

def exec (mode : StoreMode) (ctx : JobContext) (maxConcurrency : ℕ) (s : DispatchSystem κ)
    (acts : List (DispatchAction κ)) : DispatchSystem κ :=
  acts.foldl (step mode ctx maxConcurrency) s

/-- `uuid4` draws ids that no job and no outbox record has had. -/
def DrawsFresh (s : DispatchSystem κ) : DispatchAction κ → Prop
  | .admitParseBoundJob _ ids => ids.jobId ∉ s.admitted ∧ ids.outboxId ∉ s.store.analysisJobOutbox
  | _ => True

/-- No claim takes a job that another live dispatcher has claimed and not yet marked RUNNING. -/
def NoTakeover (s : DispatchSystem κ) : DispatchAction κ → Prop
  | .claim _ locked => ∀ m ∈ (s.store.claimAnalysisJobOutbox locked 1 s.now).2,
      ∀ d, (s.dispatcher d).phase.unmarked ≠ some m.jobId
  | _ => True

/-- A run with fresh ids whose claims take nothing over. -/
inductive LeasedRun (mode : StoreMode) (ctx : JobContext) (maxConcurrency : ℕ) :
    DispatchSystem κ → List (DispatchAction κ) → Prop
  | nil : LeasedRun mode ctx maxConcurrency s []
  | cons (hfresh : s.DrawsFresh a) (hclaim : s.NoTakeover a)
      (hrest : LeasedRun mode ctx maxConcurrency (s.step mode ctx maxConcurrency a) acts) :
      LeasedRun mode ctx maxConcurrency s (a :: acts)

end DispatchSystem
end QuantAgent
