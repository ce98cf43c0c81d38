import QuantAgent.Jobs.Dispatch

namespace QuantAgent
set_option autoImplicit true

/-- What is left to read of a document that does not validate; any other status reads as none. -/
structure UndecodableDocument where
  hasJobId : Bool
  status : Option AnalysisJobStatus
  ownerIncarnation : Option String
  fallbackReasons : List String
  errorMessage : Option String
  completedAt : Option Timestamp
deriving DecidableEq

/-- `job_jsonb`, as `_decode_persisted_job_document` reads it. -/
inductive PersistedDocument where
  | job (job : AnalysisJob)
  | undecodable (document : UndecodableDocument)
deriving DecidableEq

namespace PersistedDocument

def status : PersistedDocument → Option AnalysisJobStatus
  | job j => some j.status
  | undecodable d => d.status

/-- `job_jsonb ->> 'status' IN ('queued', 'running')` -/
def active (d : PersistedDocument) : Bool := d.status == some .queued || d.status == some .running

def forceFail (errorMessage reason : String) (now : Timestamp) : PersistedDocument → PersistedDocument
  | job j => job { j with
    status := .failed
    errorMessage := some errorMessage
    completedAt := some (now / 1000000 * 1000000)
    fallbackReasons := j.fallbackReasons ++ [reason] }
  | undecodable d => undecodable { d with
    status := some .failed
    errorMessage := some errorMessage
    completedAt := some (now / 1000000 * 1000000)
    fallbackReasons := d.fallbackReasons ++ [reason] }

/-- A document names the row it is stored in, if it can be read as a job. -/
def Names (jobId : JobId) : PersistedDocument → Prop
  | job j => j.jobId = jobId
  | undecodable _ => True

end PersistedDocument

/-- A row of `app.ai_analysis_job`. -/
structure PersistedRow where
  document : PersistedDocument
  updatedAt : Timestamp
deriving DecidableEq

/-- The job table, whose rows are written under their jobs' ids, and the outbox. -/
structure PersistedJobs where
  rows : Dict JobId PersistedRow
  outbox : Dict String OutboxRecord
  named : rows.All fun jobId row => row.document.Names jobId

inductive ReconciliationError where
  /-- `InterruptedJobReconciliationError` with its message. -/
  | interrupted (message : String)
  /-- Whatever the check of the outbox raised. -/
  | outbox
deriving DecidableEq

/-- The calls of one sweep to the database. -/
inductive ReconciliationCall where
  | listJobs
  | forceFail (jobId : JobId)
  | hasOutbox (jobId : JobId)
  | failJob (jobId : JobId)
deriving DecidableEq

/-- Which calls the database fails, and when it serves the others. -/
structure DatabaseRun where
  fails : ReconciliationCall → Bool
  clock : JobId → Timestamp

namespace PersistedJobs

def save (s : PersistedJobs) (jobId : JobId) (row : PersistedRow) (h : row.document.Names jobId) :
    PersistedJobs :=
  { s with rows := s.rows.insert jobId row, named := s.named.insert h }

def hasRecoverableAnalysisJobOutbox (s : PersistedJobs) (jobId : JobId) : Bool :=
  s.outbox.values.any fun record =>
    record.jobId == jobId && (record.state == .pending || record.state == .claimed)

/-- The job that a row holds. -/
def rowJob (e : JobId × PersistedRow) : Option AnalysisJob :=
  match e.2.document with
  | .job job => some job
  | .undecodable _ => none

/-- The id of a row that cannot be read. -/
def rowUndecodable (e : JobId × PersistedRow) : Option JobId :=
  match e.2.document with
  | .job _ => none
  | .undecodable _ => some e.1

def rowNameless (e : JobId × PersistedRow) : Bool :=
  match e.2.document with
  | .job _ => false
  | .undecodable d => !d.hasJobId

/-- The jobs and the ids of the rows that cannot be read, oldest first; none, if there are more
active rows than `limit` or one of them has no id. -/
def listJobsForReconciliation (s : PersistedJobs) (limit : ℤ) : Option (List AnalysisJob × List JobId) :=
  let rows := pySorted (fun a b => decide (a.2.updatedAt < b.2.updatedAt))
    (s.rows.entries.filter fun e => e.2.document.active)
  if limit < 1 ∨ limit < rows.length ∨ rows.any rowNameless then none
  else some (rows.filterMap rowJob, rows.filterMap rowUndecodable)

theorem names_forceFail {d : PersistedDocument} (h : d.Names jobId) :
    (d.forceFail errorMessage reason now).Names jobId := by
  cases d with
  | job j => exact h
  | undecodable d => exact h

/-- Whether a row was settled, and the table. -/
def forceFailUndecodableJob (s : PersistedJobs) (jobId : JobId) (errorMessage reason : String)
    (now : Timestamp) : Bool × PersistedJobs :=
  match hrow : s.rows.get? jobId with
  | some row =>
    if row.document.active then
      (true, s.save jobId ⟨row.document.forceFail errorMessage reason now, now⟩
        (names_forceFail (s.named jobId row hrow)))
    else (false, s)
  | none => (false, s)

/-- `fail_job` reads the row again; it raises if there is no such job. -/
def failJob (s : PersistedJobs) (jobId : JobId) (errorMessage : String) (fallbackReasons : List String)
    (now : Timestamp) : Option PersistedJobs :=
  match hrow : s.rows.get? jobId with
  | some ⟨.job job, _⟩ =>
    have hname : job.jobId = jobId := s.named jobId _ hrow
    some (s.save jobId ⟨.job (job.failJob errorMessage (some fallbackReasons) none now), now⟩ hname)
  | _ => none

section
variable (db : DatabaseRun) (incarnation : String)

def settleUndecodable : PersistedJobs → List JobId → List JobId →
    Except ReconciliationError (List JobId) × PersistedJobs
  | s, reaped, [] => (.ok reaped, s)
  | s, reaped, jobId :: rest =>
    if db.fails (.forceFail jobId) then
      (.error (.interrupted
        "analysis job restart reconciliation could not settle an undecodable job"), s)
    else
      let r := s.forceFailUndecodableJob jobId interruptedByRestartMessage
        interruptedByRestartReason (db.clock jobId)
      settleUndecodable r.2 (if r.1 then reaped ++ [jobId] else reaped) rest

def reapJobs : PersistedJobs → List JobId → List AnalysisJob →
    Except ReconciliationError (List JobId) × PersistedJobs
  | s, reaped, [] => (.ok reaped, s)
  | s, reaped, job :: rest =>
    if ¬(job.status = .queued ∨ job.status = .running) ∨ job.ownerIncarnation = some incarnation then
      reapJobs s reaped rest
    else if job.status = .queued ∧ db.fails (.hasOutbox job.jobId) then (.error .outbox, s)
    else if job.status = .queued ∧ s.hasRecoverableAnalysisJobOutbox job.jobId then
      reapJobs s reaped rest
    else
      let settled := if db.fails (.failJob job.jobId) then none else
        s.failJob job.jobId interruptedByRestartMessage
          (job.fallbackReasons ++ [interruptedByRestartReason]) (db.clock job.jobId)
      match settled with
      | none => (.error (.interrupted
        "analysis job restart reconciliation could not settle an interrupted job"), s)
      | some s' => reapJobs s' (reaped ++ [job.jobId]) rest

/-- `reap_interrupted_jobs` on a store that supports strict reconciliation. -/
def reapInterruptedJobs (s : PersistedJobs) (limit : ℤ) :
    Except ReconciliationError (List JobId) × PersistedJobs :=
  let batch := if db.fails .listJobs then none else s.listJobsForReconciliation limit
  match batch with
  | none => (.error (.interrupted
    "analysis job restart reconciliation could not inspect the job store"), s)
  | some (jobs, undecodable) =>
    match settleUndecodable db s [] undecodable with
    | (.error error, s) => (.error error, s)
    | (.ok reaped, s) => reapJobs db incarnation s reaped jobs

end

/-- `ids` are settled: they were active and have failed, and nothing else has changed. -/
structure Settles (s : PersistedJobs) (ids : List JobId) (s' : PersistedJobs) : Prop where
  failed : ∀ id ∈ ids, ∃ row row', s.rows.get? id = some row ∧ row.document.active ∧
    s'.rows.get? id = some row' ∧ row'.document.status = some .failed
  other : ∀ id, id ∉ ids → s'.rows.get? id = s.rows.get? id
  outbox : s'.outbox = s.outbox
  nodup : ids.Nodup

theorem Settles.refl (s : PersistedJobs) : s.Settles [] s :=
  ⟨nofun, fun _ _ => rfl, rfl, List.nodup_nil⟩

theorem not_active_of_failed {d : PersistedDocument} (h : d.status = some .failed) : ¬ d.active := by
  simp [PersistedDocument.active, h]

theorem Settles.trans {s₁ s₂ s₃ : PersistedJobs} (h : s₁.Settles ids s₂) (h' : s₂.Settles ids' s₃) :
    s₁.Settles (ids ++ ids') s₃ := by
  have hdisjoint : ∀ id ∈ ids', id ∉ ids := by
    intro id hid' hid
    obtain ⟨row, -, hrow, hactive, -⟩ := h'.failed id hid'
    obtain ⟨-, row', -, -, hrow', hstatus⟩ := h.failed id hid
    cases hrow.symm.trans hrow'
    exact not_active_of_failed hstatus hactive
  refine ⟨fun id hid => ?_, fun id hid => ?_, h'.outbox.trans h.outbox,
    List.nodup_append'.mpr ⟨h.nodup, h'.nodup, fun id hid hid' => hdisjoint id hid' hid⟩⟩
  · by_cases hmem : id ∈ ids'
    · obtain ⟨row, row', hrow, hactive, hrow', hstatus⟩ := h'.failed id hmem
      exact ⟨row, row', h.other id (hdisjoint id hmem) ▸ hrow, hactive, hrow', hstatus⟩
    · obtain ⟨row, row', hrow, hactive, hrow', hstatus⟩ :=
        h.failed id ((List.mem_append.mp hid).resolve_right hmem)
      exact ⟨row, row', hrow, hactive, (h'.other id hmem).trans hrow', hstatus⟩
  · rw [List.mem_append, not_or] at hid
    exact (h'.other id hid.2).trans (h.other id hid.1)

theorem Settles.inactive {s s' : PersistedJobs} {id : JobId} (h : s.Settles ids s')
    (hbefore : ∀ row, s.rows.get? id = some row → ¬ row.document.active)
    (hrow : s'.rows.get? id = some row) : ¬ row.document.active := by
  by_cases hid : id ∈ ids
  · obtain ⟨-, row', -, -, hrow', hstatus⟩ := h.failed id hid
    cases hrow.symm.trans hrow'
    exact not_active_of_failed hstatus
  · exact hbefore row ((h.other id hid).symm.trans hrow)

theorem Settles.save {s : PersistedJobs} {id : JobId} {row row' : PersistedRow} (hrow : s.rows.get? id = some row)
    (hactive : row.document.active) (hname : row'.document.Names id)
    (hstatus : row'.document.status = some .failed) : s.Settles [id] (s.save id row' hname) := by
  refine ⟨fun j hj => ?_, fun j hj => ?_, rfl, List.nodup_singleton id⟩
  · obtain rfl := List.mem_singleton.mp hj
    exact ⟨row, row', hrow, hactive, Dict.get?_insert_self _, hstatus⟩
  · rw [List.mem_singleton] at hj
    exact (Dict.get?_insert _).trans (if_neg hj)

theorem forceFail_status (d : PersistedDocument) :
    (d.forceFail errorMessage reason now).status = some .failed := by
  cases d <;> rfl

/-- An active row is settled by force, and one that is not active is left alone. -/
theorem forceFailUndecodableJob_settles (s : PersistedJobs) (id : JobId) (errorMessage reason : String)
    (now : Timestamp) :
    s.Settles (if (s.forceFailUndecodableJob id errorMessage reason now).1 then [id] else [])
        (s.forceFailUndecodableJob id errorMessage reason now).2 ∧
      ∀ row, (s.forceFailUndecodableJob id errorMessage reason now).2.rows.get? id = some row →
        ¬ row.document.active := by
  unfold forceFailUndecodableJob
  split
  · rename_i row hrow
    by_cases hactive : row.document.active
    · simp only [if_pos hactive, if_true]
      refine ⟨.save hrow hactive _ (forceFail_status _), fun row' hrow' => ?_⟩
      cases (Dict.get?_insert_self _).symm.trans hrow'
      exact not_active_of_failed (forceFail_status _)
    · simp only [if_neg hactive]
      refine ⟨.refl s, fun row' hrow' => ?_⟩
      cases hrow.symm.trans hrow'
      exact hactive
  · rename_i hnone
    refine ⟨.refl s, fun row' hrow' => ?_⟩
    cases hnone.symm.trans hrow'

theorem failJob_settles {s s' : PersistedJobs} {id : JobId} (hrow : s.rows.get? id = some ⟨.job job, updatedAt⟩)
    (hactive : (PersistedDocument.job job).active)
    (h : s.failJob id errorMessage fallbackReasons now = some s') : s.Settles [id] s' := by
  unfold failJob at h
  split at h
  · rename_i job' _ hrow'
    cases h
    exact .save hrow hactive _ rfl
  · cases h

theorem settleUndecodable_settles {s s' : PersistedJobs} {ids : List JobId}
    (h : settleUndecodable db s reaped ids = (.ok r, s')) :
    ∃ new, r = reaped ++ new ∧ s.Settles new s' ∧ new ⊆ ids ∧
      ∀ id ∈ ids, ∀ row, s'.rows.get? id = some row → ¬ row.document.active := by
  induction ids generalizing s reaped with
  | nil =>
    obtain ⟨hr, rfl⟩ := Prod.mk.inj h
    cases hr
    exact ⟨[], (List.append_nil _).symm, .refl s, List.Subset.refl _, List.forall_mem_nil _⟩
  | cons id ids ih =>
    rw [settleUndecodable] at h
    split at h
    · cases h
    · obtain ⟨hsettles, hinactive⟩ := s.forceFailUndecodableJob_settles id interruptedByRestartMessage
        interruptedByRestartReason (db.clock id)
      obtain ⟨new, hr, hrest, hnew, hids⟩ := ih h
      refine ⟨_ ++ new, ?_, hsettles.trans hrest, ?_, fun j hj row hrow => ?_⟩
      · rw [hr, ← List.append_assoc]
        split <;> simp
      · refine List.append_subset.mpr ⟨?_, List.subset_cons_of_subset id hnew⟩
        split
        · exact List.cons_subset.mpr ⟨List.mem_cons_self .., List.nil_subset _⟩
        · exact List.nil_subset _
      · rcases List.mem_cons.mp hj with rfl | hj
        · exact hrest.inactive hinactive hrow
        · exact hids j hj row hrow

/-- Why the sweep passes over a job: it is not active, of this process, or can still be dispatched. -/
def Spared (s : PersistedJobs) (incarnation : String) (job : AnalysisJob) : Prop :=
  ¬(job.status = .queued ∨ job.status = .running) ∨ job.ownerIncarnation = some incarnation ∨
    job.status = .queued ∧ s.hasRecoverableAnalysisJobOutbox job.jobId

theorem reapJobs_settles {s s' : PersistedJobs} {jobs : List AnalysisJob}
    (hrows : ∀ job ∈ jobs, ∃ updatedAt, s.rows.get? job.jobId = some ⟨.job job, updatedAt⟩)
    (hnodup : (jobs.map AnalysisJob.jobId).Nodup)
    (h : reapJobs db incarnation s reaped jobs = (.ok r, s')) :
    ∃ new, r = reaped ++ new ∧ s.Settles new s' ∧
      (∀ job ∈ jobs, s.Spared incarnation job ∨ job.jobId ∈ new) ∧
      ∀ id ∈ new, ∃ job ∈ jobs, job.jobId = id ∧ job.ownerIncarnation ≠ some incarnation := by
  induction jobs generalizing s reaped with
  | nil =>
    obtain ⟨hr, rfl⟩ := Prod.mk.inj h
    cases hr
    exact ⟨[], (List.append_nil _).symm, .refl s, List.forall_mem_nil _, List.forall_mem_nil _⟩
  | cons job jobs ih =>
    obtain ⟨hhead, htail⟩ := List.nodup_cons.mp hnodup
    have hspared : s.Spared incarnation job → reapJobs db incarnation s reaped jobs = (.ok r, s') →
        ∃ new, r = reaped ++ new ∧ s.Settles new s' ∧
          (∀ job' ∈ job :: jobs, s.Spared incarnation job' ∨ job'.jobId ∈ new) ∧
          ∀ id ∈ new, ∃ job' ∈ job :: jobs, job'.jobId = id ∧
            job'.ownerIncarnation ≠ some incarnation := by
      intro hspare hrest
      obtain ⟨new, hr, hsettles, hjobs, hnew⟩ :=
        ih (fun job' hmem => hrows job' (List.mem_cons_of_mem job hmem)) htail hrest
      refine ⟨new, hr, hsettles, List.forall_mem_cons.mpr ⟨.inl hspare, hjobs⟩, fun id hid => ?_⟩
      obtain ⟨job', hmem, hjob'⟩ := hnew id hid
      exact ⟨job', List.mem_cons_of_mem job hmem, hjob'⟩
    rw [reapJobs] at h
    split at h
    · rename_i hskip
      exact hspared (hskip.imp_right .inl) h
    · rename_i hreap
      split at h
      · cases h
      · split at h
        · rename_i hqueued
          exact hspared (.inr (.inr hqueued)) h
        · rw [not_or, not_not] at hreap
          have hactive : (PersistedDocument.job job).active := by
            simpa [PersistedDocument.active, PersistedDocument.status] using hreap.1
          obtain ⟨updatedAt, hrow⟩ := hrows job (List.mem_cons_self ..)
          dsimp only at h
          split at h
          · cases h
          · rename_i s₁ hsettled
            have hfail : s.failJob job.jobId interruptedByRestartMessage
                (job.fallbackReasons ++ [interruptedByRestartReason]) (db.clock job.jobId) = some s₁ := by
              split at hsettled
              · cases hsettled
              · exact hsettled
            have hfirst := failJob_settles hrow hactive hfail
            have hother : ∀ job' ∈ jobs, job'.jobId ∉ [job.jobId] := by
              intro job' hmem heq
              exact hhead (List.mem_singleton.mp heq ▸ List.mem_map_of_mem hmem)
            obtain ⟨new, hr, hsettles, hjobs, hnew⟩ := ih (fun job' hmem => by
              rw [hfirst.other _ (hother job' hmem)]
              exact hrows job' (List.mem_cons_of_mem job hmem)) htail h
            refine ⟨job.jobId :: new, by rw [hr, List.append_assoc]; rfl, hfirst.trans hsettles,
              List.forall_mem_cons.mpr ⟨.inr (List.mem_cons_self ..), fun job' hmem => ?_⟩,
              List.forall_mem_cons.mpr ⟨⟨job, List.mem_cons_self .., rfl, hreap.2⟩, fun id hid => ?_⟩⟩
            · refine (hjobs job' hmem).imp (fun hspare => ?_) (List.mem_cons_of_mem _)
              simpa only [Spared, hasRecoverableAnalysisJobOutbox, hfirst.outbox] using hspare
            · obtain ⟨job', hmem, hjob'⟩ := hnew id hid
              exact ⟨job', List.mem_cons_of_mem job hmem, hjob'⟩

theorem rowJob_eq_some {e : JobId × PersistedRow} (h : rowJob e = some job) :
    e.2 = ⟨.job job, e.2.updatedAt⟩ := by
  obtain ⟨id, document, updatedAt⟩ := e
  cases document with
  | job j =>
    cases h
    rfl
  | undecodable d => cases h

theorem filterMap_rowJob_sublist {l : List (JobId × PersistedRow)}
    (h : ∀ e ∈ l, e.2.document.Names e.1) :
    ((l.filterMap rowJob).map AnalysisJob.jobId).Sublist (l.map Prod.fst) := by
  induction l with
  | nil => exact .slnil
  | cons e l ih =>
    obtain ⟨hhead, htail⟩ := List.forall_mem_cons.mp h
    cases hjob : rowJob e with
    | none =>
      rw [List.filterMap_cons_none hjob, List.map_cons]
      exact (ih htail).cons _
    | some job =>
      have hid : job.jobId = e.1 := by
        rw [rowJob_eq_some hjob] at hhead
        exact hhead
      rw [List.filterMap_cons_some hjob, List.map_cons, List.map_cons, hid]
      exact (ih htail).cons_cons _

/-- The listing has every active row: its job, or its id if it cannot be read. -/
theorem listed {s : PersistedJobs} (h : s.listJobsForReconciliation limit = some (jobs, undecodable)) :
    (∀ job ∈ jobs, ∃ updatedAt, s.rows.get? job.jobId = some ⟨.job job, updatedAt⟩) ∧
      (jobs.map AnalysisJob.jobId).Nodup ∧
      (∀ id ∈ undecodable, ∀ job updatedAt, s.rows.get? id ≠ some ⟨.job job, updatedAt⟩) ∧
      ∀ id row, s.rows.get? id = some row → row.document.active →
        (∃ job ∈ jobs, row.document = .job job) ∨ id ∈ undecodable := by
  simp only [listJobsForReconciliation] at h
  split at h
  · cases h
  · have hmem : ∀ e, e ∈ pySorted (fun a b => decide (a.2.updatedAt < b.2.updatedAt))
        (s.rows.entries.filter fun e => e.2.document.active) ↔
          s.rows.get? e.1 = some e.2 ∧ e.2.document.active := by
      intro e
      rw [mem_pySorted, List.mem_filter]
      exact and_congr_left fun _ => ⟨Dict.get?_of_entry_mem, Dict.entry_mem_of_get?⟩
    generalize hrows : pySorted (fun a b => decide (a.2.updatedAt < b.2.updatedAt))
      (s.rows.entries.filter fun e => e.2.document.active) = rows at h hmem
    have hnodup : (rows.map Prod.fst).Nodup := by
      rw [← hrows, ((pySorted_perm _ _).map Prod.fst).nodup_iff]
      exact s.rows.nodup.sublist (List.filter_sublist.map Prod.fst)
    cases h
    refine ⟨fun job hjob => ?_, ?_, fun id hid job updatedAt hget => ?_, fun id row hget hactive => ?_⟩
    · obtain ⟨e, he, hjob⟩ := List.mem_filterMap.mp hjob
      have hget := ((hmem e).mp he).1
      have hname := s.named e.1 e.2 hget
      rw [rowJob_eq_some hjob] at hget hname
      have hid : job.jobId = e.1 := hname
      exact ⟨_, hid ▸ hget⟩
    · exact hnodup.sublist (filterMap_rowJob_sublist fun e he => s.named e.1 e.2 ((hmem e).mp he).1)
    · obtain ⟨e, he, hid⟩ := List.mem_filterMap.mp hid
      have hrow := ((hmem e).mp he).1
      obtain ⟨id', document, updatedAt'⟩ := e
      cases document with
      | job j => cases hid
      | undecodable d =>
        cases hid
        cases hget.symm.trans hrow
    · cases hdocument : row.document with
      | job job =>
        refine .inl ⟨job, List.mem_filterMap.mpr ⟨(id, row), (hmem _).mpr ⟨hget, hactive⟩, ?_⟩, rfl⟩
        simp only [rowJob, hdocument]
      | undecodable d =>
        refine .inr (List.mem_filterMap.mpr ⟨(id, row), (hmem _).mpr ⟨hget, hactive⟩, ?_⟩)
        simp only [rowUndecodable, hdocument]

/-- What the sweep that settled `ids` leaves: nothing of another process is in flight, unless it can
still be dispatched, and nothing else has changed. -/
structure Reconciled (incarnation : String) (s : PersistedJobs) (ids : List JobId)
    (s' : PersistedJobs) : Prop where
  running : ∀ id job updatedAt, s'.rows.get? id = some ⟨.job job, updatedAt⟩ →
    job.status = .running → job.ownerIncarnation = some incarnation
  queued : ∀ id job updatedAt, s'.rows.get? id = some ⟨.job job, updatedAt⟩ →
    job.status = .queued → job.ownerIncarnation ≠ some incarnation →
    s'.hasRecoverableAnalysisJobOutbox id
  undecodable : ∀ id document updatedAt, s'.rows.get? id = some ⟨.undecodable document, updatedAt⟩ →
    ¬ (PersistedDocument.undecodable document).active
  own : ∀ id job updatedAt, s.rows.get? id = some ⟨.job job, updatedAt⟩ →
    job.ownerIncarnation = some incarnation → s'.rows.get? id = some ⟨.job job, updatedAt⟩
  terminal : ∀ id row, s.rows.get? id = some row → ¬ row.document.active →
    s'.rows.get? id = some row
  settled : s.Settles ids s'
  returned : ∀ id, id ∈ ids ↔ s'.rows.get? id ≠ s.rows.get? id

/-- A sweep that returns normally has reconciled the table; otherwise it raises. -/
theorem reapInterruptedJobs_reconciled {s s' : PersistedJobs} {ids : List JobId}
    (h : s.reapInterruptedJobs db incarnation limit = (.ok ids, s')) :
    Reconciled incarnation s ids s' := by
  simp only [reapInterruptedJobs] at h
  split at h
  · cases h
  · rename_i jobs undecodable hbatch
    have hlist : s.listJobsForReconciliation limit = some (jobs, undecodable) := by
      split at hbatch
      · cases hbatch
      · exact hbatch
    obtain ⟨hrows, hnodup, hnojob, hactive⟩ := listed hlist
    split at h
    · cases h
    · rename_i forced s₁ hforce
      obtain ⟨_, rfl, hsettles₁, hforced, hinactive⟩ := settleUndecodable_settles hforce
      have hfree : ∀ id job updatedAt, s.rows.get? id = some ⟨.job job, updatedAt⟩ →
          id ∉ forced := fun id job updatedAt hrow hmem => hnojob id (hforced hmem) job updatedAt hrow
      have hrows₁ : ∀ job ∈ jobs, ∃ updatedAt, s₁.rows.get? job.jobId = some ⟨.job job, updatedAt⟩ := by
        intro job hjob
        obtain ⟨updatedAt, hrow⟩ := hrows job hjob
        exact ⟨updatedAt, (hsettles₁.other _ (hfree _ job updatedAt hrow)).trans hrow⟩
      obtain ⟨new, hids, hsettles₂, hjobs, hnew⟩ := reapJobs_settles hrows₁ hnodup h
      have hsettles : s.Settles ids s' := hids ▸ hsettles₁.trans hsettles₂
      have hleft : ∀ id row, s'.rows.get? id = some row → row.document.active →
          s.rows.get? id = some row ∧ id ∉ ids := by
        intro id row hrow hact
        have hmem : id ∉ ids := by
          intro hmem
          obtain ⟨-, row', -, -, hrow', hstatus⟩ := hsettles.failed id hmem
          cases hrow.symm.trans hrow'
          exact not_active_of_failed hstatus hact
        exact ⟨(hsettles.other id hmem).symm.trans hrow, hmem⟩
      have hspared : ∀ id job updatedAt, s'.rows.get? id = some ⟨.job job, updatedAt⟩ →
          (PersistedDocument.job job).active → s₁.Spared incarnation job ∧ job.jobId = id := by
        intro id job updatedAt hrow hact
        obtain ⟨hbefore, hmem⟩ := hleft id _ hrow hact
        have hid : job.jobId = id := s.named id _ hbefore
        rcases hactive id _ hbefore hact with ⟨job', hjob', heq⟩ | hun
        · cases heq
          refine ⟨(hjobs job hjob').resolve_right fun hreaped => hmem ?_, hid⟩
          rw [hids, ← hid]
          exact List.mem_append_right _ hreaped
        · exact absurd hbefore (hnojob id hun job updatedAt)
      refine ⟨fun id job updatedAt hrow hrunning => ?_, fun id job updatedAt hrow hqueued hforeign => ?_,
        fun id document updatedAt hrow hact => ?_, fun id job updatedAt hrow hown => ?_,
        fun id row hrow hact => ?_, hsettles, fun id => ⟨fun hid => ?_, fun hne => ?_⟩⟩
      · have hact : (PersistedDocument.job job).active := by
          simp [PersistedDocument.active, PersistedDocument.status, hrunning]
        rcases (hspared id job updatedAt hrow hact).1 with hidle | hown | ⟨hqueued, -⟩
        · exact absurd (.inr hrunning) hidle
        · exact hown
        · cases hqueued.symm.trans hrunning
      · have hact : (PersistedDocument.job job).active := by
          simp [PersistedDocument.active, PersistedDocument.status, hqueued]
        obtain ⟨hspare, hid⟩ := hspared id job updatedAt hrow hact
        rcases hspare with hidle | hown | ⟨-, hrecoverable⟩
        · exact absurd (.inl hqueued) hidle
        · exact absurd hown hforeign
        · rw [hasRecoverableAnalysisJobOutbox, hsettles₂.outbox, ← hid]
          exact hrecoverable
      · obtain ⟨hbefore, -⟩ := hleft id _ hrow hact
        rcases hactive id _ hbefore hact with ⟨job, -, heq⟩ | hun
        · cases heq
        · exact hsettles₂.inactive (hinactive id hun) hrow hact
      · have hmem : id ∉ ids := by
          intro hmem
          rw [hids] at hmem
          rcases List.mem_append.mp hmem with hforce | hreaped
          · exact hfree id job updatedAt hrow hforce
          · obtain ⟨job', hjob', rfl, hforeign⟩ := hnew id hreaped
            obtain ⟨updatedAt', hrow'⟩ := hrows job' hjob'
            cases hrow.symm.trans hrow'
            exact hforeign hown
        exact (hsettles.other id hmem).trans hrow
      · have hmem : id ∉ ids := by
          intro hmem
          obtain ⟨row', -, hrow', hact', -⟩ := hsettles.failed id hmem
          cases hrow.symm.trans hrow'
          exact hact hact'
        exact (hsettles.other id hmem).trans hrow
      · obtain ⟨row, row', hrow, hact, hrow', hstatus⟩ := hsettles.failed id hid
        intro heq
        cases hrow'.symm.trans (heq.trans hrow)
        exact not_active_of_failed hstatus hact
      · by_contra hid
        exact hne (hsettles.other id hid)

/-- A job as an earlier build or process may have left it. -/
def leftJob (jobId : JobId) (status : AnalysisJobStatus) (ownerIncarnation : Option String) :
    AnalysisJob where
  jobId := jobId
  traceId := "trace"
  query := "query"
  userId := none
  strategyId := none
  runId := none
  reportId := none
  executionSpecVersion := none
  executionSpecHash := none
  executionSpec := none
  clientIdempotencyKey := none
  status := status
  pollingStage := .interpreting
  createdAt := 0
  updatedAt := 0
  completedAt := none
  stages := []
  result := none
  debugRef := none
  fallbackReasons := []
  errorMessage := none
  ownerIncarnation := ownerIncarnation
  executionManifest := ⟨⟨jobId, "trace", none, none⟩, ⟨0, none, none⟩⟩

/-- The table with one job, and no outbox record. -/
def leftTable (job : AnalysisJob) : PersistedJobs where
  rows := Dict.empty.insert job.jobId ⟨.job job, 0⟩
  outbox := Dict.empty
  named := Dict.All.insert Dict.All.empty rfl

def servingDatabase : DatabaseRun := ⟨fun _ => false, fun _ => 10⟩

theorem reapInterruptedJobs_reconciled_running :
    Reconciled "new" (leftTable (leftJob "j" .running (some "old"))) ["j"]
      ((leftTable (leftJob "j" .running (some "old"))).reapInterruptedJobs servingDatabase "new" 500).2 := by
  have hrun : ((leftTable (leftJob "j" .running (some "old"))).reapInterruptedJobs servingDatabase
      "new" 500).1 = .ok ["j"] := rfl
  exact reapInterruptedJobs_reconciled (Prod.ext hrun rfl)

theorem queued_of_own_process_stays :
    ¬ ∀ (s s' : PersistedJobs) (db : DatabaseRun) (incarnation : String) (limit : ℤ) (ids : List JobId),
      s.reapInterruptedJobs db incarnation limit = (.ok ids, s') →
      ∀ id job updatedAt, s'.rows.get? id = some ⟨.job job, updatedAt⟩ → job.status = .queued →
        s'.hasRecoverableAnalysisJobOutbox id := by
  intro h
  have hstays := h (leftTable (leftJob "j" .queued (some "new"))) _ servingDatabase "new" 500 [] rfl "j"
    (leftJob "j" .queued (some "new")) 0 rfl rfl
  exact absurd hstays (by decide)

end PersistedJobs
end QuantAgent
