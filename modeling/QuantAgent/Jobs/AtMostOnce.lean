import QuantAgent.Jobs.Dispatch

namespace QuantAgent
set_option autoImplicit true

namespace AnalysisJobStore

def queued (s : AnalysisJobStore) (jobId : JobId) : Prop :=
  ∃ job, s.getJob jobId = some job ∧ job.status = .queued

theorem queued_congr {s t : AnalysisJobStore} (h : s.jobs = t.jobs) : s.queued j ↔ t.queued j := by
  unfold queued getJob
  rw [h]

theorem saveJob_queued {s : AnalysisJobStore} (hst : job.status ≠ .queued)
    (h : (s.saveJob jobId job).queued j) : j ≠ jobId ∧ s.queued j := by
  obtain ⟨job', hjob, hq⟩ := h
  rw [getJob_saveJob] at hjob
  split at hjob
  · cases hjob
    exact absurd hq hst
  · rename_i hne
    exact ⟨hne, job', hjob, hq⟩

theorem hasRecoverable_iff {s : AnalysisJobStore} :
    s.hasRecoverableAnalysisJobOutbox j = true ↔
      ∃ o r, s.analysisJobOutbox.get? o = some r ∧ r.jobId = j ∧ r.state ≠ .delivered := by
  unfold hasRecoverableAnalysisJobOutbox
  rw [List.any_eq_true]
  constructor
  · rintro ⟨r, hr, hj⟩
    obtain ⟨⟨o, r'⟩, he, rfl⟩ := List.mem_map.mp hr
    simp only [Bool.and_eq_true, Bool.or_eq_true, beq_iff_eq] at hj
    refine ⟨o, r', Dict.get?_of_entry_mem he, hj.1, ?_⟩
    intro hd
    simp [hd] at hj
  · rintro ⟨o, r, hr, hj, hd⟩
    refine ⟨r, List.mem_map.mpr ⟨(o, r), Dict.entry_mem_of_get? hr, rfl⟩, ?_⟩
    cases hs : r.state with
    | pending => simp [hj]
    | claimed => simp [hj]
    | delivered => exact absurd hs hd

def putRecord (s : AnalysisJobStore) (o : String) (r : OutboxRecord) : AnalysisJobStore :=
  { s with analysisJobOutbox := s.analysisJobOutbox.insert o r }

/-- One claim of a single message. -/
theorem claim_one {s : AnalysisJobStore} {locked : String → Bool} {now : Timestamp}
    (h : (s.claimAnalysisJobOutbox locked 1 now).2 = m :: rest) :
    ∃ r, s.analysisJobOutbox.get? m.outboxId = some r ∧ r.jobId = m.jobId ∧ s.queued m.jobId ∧
      (s.claimAnalysisJobOutbox locked 1 now).1 =
        s.putRecord m.outboxId ⟨m.jobId, .claimed, some now⟩ := by
  have hlimit : ¬(1 : ℤ) < 1 := by decide
  simp only [claimAnalysisJobOutbox, if_neg hlimit, Int.toNat_one] at h ⊢
  cases hf : s.analysisJobOutbox.entries.filter fun e => s.claimable now e.2 && !locked e.1 with
  | nil => simp [hf] at h
  | cons e l =>
    simp only [hf, List.take_succ_cons, List.take_zero, List.map_cons, List.map_nil,
      List.cons.injEq] at h
    obtain ⟨rfl, -⟩ := h
    have he : e ∈ s.analysisJobOutbox.entries.filter fun e => s.claimable now e.2 && !locked e.1 := by
      rw [hf]
      exact List.mem_cons_self ..
    obtain ⟨hmem, hclaim⟩ := List.mem_filter.mp he
    refine ⟨e.2, Dict.get?_of_entry_mem hmem, rfl, ?_, by simp [putRecord]⟩
    have hqueued : (s.getJob e.2.jobId).any (fun job => job.status == .queued) = true := by
      simp only [claimable, Bool.and_eq_true] at hclaim
      exact hclaim.1.2
    cases hjob : s.getJob e.2.jobId with
    | none => simp [hjob] at hqueued
    | some job => exact ⟨job, hjob, by simpa [hjob] using hqueued⟩

theorem reapOne_outbox (incarnation : String) (now : Timestamp) (s : AnalysisJobStore)
    (job : AnalysisJob) : (reapOne incarnation now s job).analysisJobOutbox = s.analysisJobOutbox := by
  unfold reapOne
  split <;> rfl

theorem reapOne_queued {s : AnalysisJobStore} (h : (reapOne incarnation now s job).queued j) :
    s.queued j := by
  unfold reapOne at h
  split at h
  · have hfailed : (job.failJob interruptedByRestartMessage
        (some (job.fallbackReasons ++ [interruptedByRestartReason])) none now).status ≠ .queued := by
      simp [AnalysisJob.failJob]
    exact (saveJob_queued hfailed h).2
  · exact h

theorem reap_outbox (s : AnalysisJobStore) (incarnation : String) (now : Timestamp) :
    (s.reapInterruptedJobs incarnation now).analysisJobOutbox = s.analysisJobOutbox := by
  unfold reapInterruptedJobs
  generalize s.jobs.values = jobs
  induction jobs generalizing s with
  | nil => rfl
  | cons job jobs ih => exact (ih _).trans (reapOne_outbox ..)

theorem reap_queued {s : AnalysisJobStore} (h : (s.reapInterruptedJobs incarnation now).queued j) :
    s.queued j := by
  unfold reapInterruptedJobs at h
  generalize s.jobs.values = jobs at h
  induction jobs generalizing s with
  | nil => exact h
  | cons job jobs ih => exact reapOne_queued (ih h)

theorem registerParseToken_outbox (s : AnalysisJobStore)
    (nonceHash userId specVersion specHash : String) (expiresAt : Timestamp) :
    (s.registerParseToken nonceHash userId specVersion specHash expiresAt).analysisJobOutbox =
      s.analysisJobOutbox := by
  unfold registerParseToken
  split <;> rfl

/-- Every record keeps its job. -/
def SameRecords (s t : AnalysisJobStore) : Prop :=
  ∀ o, (t.analysisJobOutbox.get? o).map (·.jobId) = (s.analysisJobOutbox.get? o).map (·.jobId)

theorem SameRecords.of_eq {s t : AnalysisJobStore} (h : t.analysisJobOutbox = s.analysisJobOutbox) :
    SameRecords s t := fun o => by rw [h]

theorem SameRecords.get {s t : AnalysisJobStore} (h : SameRecords s t)
    (ht : t.analysisJobOutbox.get? o = some r) :
    ∃ r', s.analysisJobOutbox.get? o = some r' ∧ r'.jobId = r.jobId := by
  have ho := h o
  rw [ht, Option.map_some] at ho
  exact Option.map_eq_some_iff.mp ho.symm

theorem SameRecords.symm {s t : AnalysisJobStore} (h : SameRecords s t) : SameRecords t s :=
  fun o => (h o).symm

theorem SameRecords.insert {s : AnalysisJobStore} (hr : s.analysisJobOutbox.get? o = some r)
    (hj : r'.jobId = r.jobId) :
    SameRecords s (s.putRecord o r') := by
  intro o'
  change ((s.analysisJobOutbox.insert o r').get? o').map (·.jobId) = _
  rw [Dict.get?_insert]
  split
  · rename_i ho
    rw [ho, hr, Option.map_some, Option.map_some, hj]
  · rfl

/-- A record that stays recoverable under a new state keeps every job recoverable. -/
theorem recoverable_insert {s : AnalysisJobStore} (hr : s.analysisJobOutbox.get? o = some r)
    (hj : r'.jobId = r.jobId) (hd : r'.state ≠ .delivered ∨ r.jobId ≠ j)
    (h : s.hasRecoverableAnalysisJobOutbox j = true) :
    (s.putRecord o r').hasRecoverableAnalysisJobOutbox j = true := by
  obtain ⟨o₁, r₁, hr₁, hj₁, hd₁⟩ := hasRecoverable_iff.mp h
  apply hasRecoverable_iff.mpr
  by_cases ho : o₁ = o
  · subst ho
    rw [hr, Option.some.injEq] at hr₁
    subst hr₁
    rcases hd with hd | hd
    · exact ⟨o₁, r', Dict.get?_insert_self .., hj.trans hj₁, hd⟩
    · exact absurd hj₁ hd
  · refine ⟨o₁, r₁, ?_, hj₁, hd₁⟩
    change (s.analysisJobOutbox.insert o r').get? o₁ = some r₁
    rw [Dict.get?_insert, if_neg ho, hr₁]

theorem release_sameRecords (s : AnalysisJobStore) (outboxId : String) :
    SameRecords s (s.releaseAnalysisJobOutbox outboxId) := by
  unfold releaseAnalysisJobOutbox
  split
  · rename_i r hr
    split
    · exact .insert hr rfl
    · exact .of_eq rfl
  · exact .of_eq rfl

theorem release_recoverable {s : AnalysisJobStore} (outboxId : String)
    (h : s.hasRecoverableAnalysisJobOutbox j = true) :
    (s.releaseAnalysisJobOutbox outboxId).hasRecoverableAnalysisJobOutbox j = true := by
  unfold releaseAnalysisJobOutbox
  split
  · rename_i r hr
    split
    · exact recoverable_insert hr rfl (.inl nofun) h
    · exact h
  · exact h

theorem delivered_sameRecords (s : AnalysisJobStore) (outboxId : String) :
    SameRecords s (s.markAnalysisJobOutboxDelivered outboxId) := by
  unfold markAnalysisJobOutboxDelivered
  split
  · rename_i r hr
    split
    · exact .insert hr rfl
    · exact .of_eq rfl
  · exact .of_eq rfl

theorem delivered_recoverable {s : AnalysisJobStore}
    (hr : s.analysisJobOutbox.get? outboxId = some r) (hj : r.jobId ≠ j)
    (h : s.hasRecoverableAnalysisJobOutbox j = true) :
    (s.markAnalysisJobOutboxDelivered outboxId).hasRecoverableAnalysisJobOutbox j = true := by
  unfold markAnalysisJobOutboxDelivered
  rw [hr]
  simp only
  split
  · exact recoverable_insert hr rfl (.inr hj) h
  · exact h

end AnalysisJobStore

namespace DispatchPhase

/-- No dispatcher puts a job back into the queue. -/
theorem after_not_queued {ctx : JobContext} {phase next : DispatchPhase}
    (h : phase.after write = some next) (hw : write.apply ctx job now = .ok job') :
    job'.status ≠ .queued := by
  have happly := (JobWrite.apply_ok hw).2
  cases write with
  | updateStatus status stage reasons error message =>
    have hst : job'.status = status := congrArg Outcome.status happly
    rw [hst]
    rintro rfl
    cases phase <;> simp [after] at h
  | complete envelope reasons => simp [happly.1]
  | fail error reasons envelope => simp [show job'.status = .failed from happly]

theorem after_message {phase next : DispatchPhase} (h : phase.after write = some next) :
    next.message = phase.message := by
  unfold after at h
  split at h
  all_goals first | cases h; rfl | cases h

theorem after_calling {phase next : DispatchPhase} (h : phase.after write = some next)
    (hj : next.calling = some j) : phase.calling = some j := by
  unfold after at h
  split at h
  all_goals first | (cases h; first | exact hj | cases hj) | cases h

theorem started_message {phase : DispatchPhase} (h : phase.started = some j) :
    ∃ m, phase.message = some m ∧ m.jobId = j := by
  cases phase with
  | marked m => exact ⟨m, rfl, Option.some.inj h⟩
  | acknowledging m => exact ⟨m, rfl, Option.some.inj h⟩
  | _ => cases h

theorem calling_message {phase : DispatchPhase} (h : phase.calling = some j) :
    ∃ m, phase.message = some m ∧ m.jobId = j := by
  cases phase with
  | claimed m => exact ⟨m, rfl, Option.some.inj h⟩
  | waiting m => exact ⟨m, rfl, Option.some.inj h⟩
  | entered m => exact ⟨m, rfl, Option.some.inj h⟩
  | marked m => exact ⟨m, rfl, Option.some.inj h⟩
  | _ => cases h

/-- A dispatcher that may still call a runner has marked the job RUNNING or not. -/
theorem calling_cases {phase : DispatchPhase} (h : phase.calling = some j) :
    phase.unmarked = some j ∨ phase.started = some j := by
  cases phase with
  | claimed m => exact .inl h
  | waiting m => exact .inl h
  | entered m => exact .inl h
  | marked m => exact .inr h
  | _ => cases h

end DispatchPhase

namespace DispatchSystem
open AnalysisJobStore
variable {κ : Type u}

/-- At most one dispatcher may still call the runner of a job, and only while it has not been
called; a job that was started is not queued, and a queued job has a record to be claimed by. -/
structure Inv (s : DispatchSystem κ) : Prop where
  record_admitted : ∀ o r, s.store.analysisJobOutbox.get? o = some r → r.jobId ∈ s.admitted
  record_unique : ∀ o o' r r', s.store.analysisJobOutbox.get? o = some r →
    s.store.analysisJobOutbox.get? o' = some r' → r.jobId = r'.jobId → o = o'
  message_record : ∀ d m, (s.dispatcher d).phase.message = some m →
    ∃ r, s.store.analysisJobOutbox.get? m.outboxId = some r ∧ r.jobId = m.jobId
  recoverable : ∀ j, s.store.queued j → s.store.hasRecoverableAnalysisJobOutbox j = true
  invoked_nodup : s.invoked.Nodup
  invoked_admitted : ∀ j ∈ s.invoked, j ∈ s.admitted
  invoked_started : ∀ j ∈ s.invoked, ¬s.store.queued j
  calling_unique : ∀ d d' j, (s.dispatcher d).phase.calling = some j →
    (s.dispatcher d').phase.calling = some j → d = d'
  calling_fresh : ∀ d j, (s.dispatcher d).phase.calling = some j → j ∉ s.invoked
  started : ∀ d j, (s.dispatcher d).phase.started = some j → ¬s.store.queued j

theorem Inv.message_admitted {s : DispatchSystem κ} (h : s.Inv)
    (hm : (s.dispatcher d).phase.message = some m) : m.jobId ∈ s.admitted := by
  obtain ⟨r, hr, hj⟩ := h.message_record d m hm
  exact hj ▸ h.record_admitted _ r hr

theorem Inv.start (incarnation : String) (maxConcurrency : ℕ) :
    (start incarnation maxConcurrency : DispatchSystem κ).Inv where
  record_admitted _ _ h := by cases h
  record_unique _ _ _ _ h := by cases h
  message_record _ _ h := by cases h
  recoverable j h := by
    obtain ⟨job, hjob, -⟩ := h
    cases hjob
  invoked_nodup := .nil
  invoked_admitted _ h := by cases h
  invoked_started _ h := by cases h
  calling_unique _ _ _ h := by cases h
  calling_fresh _ _ h := by cases h
  started _ _ h := by cases h

/-- A change of the store that starts no job anew. -/
theorem Inv.withStore {s : DispatchSystem κ} {t : AnalysisJobStore} (h : s.Inv)
    (hrec : SameRecords s.store t) (hq : ∀ j, t.queued j → s.store.queued j)
    (hrecover : ∀ j, t.queued j → t.hasRecoverableAnalysisJobOutbox j = true) :
    Inv { s with store := t } where
  record_admitted o r hr := by
    obtain ⟨r', hr', hj⟩ := hrec.get hr
    exact hj ▸ h.record_admitted o r' hr'
  record_unique o o' r r' hr hr' hj := by
    obtain ⟨r₁, hr₁, hj₁⟩ := hrec.get hr
    obtain ⟨r₂, hr₂, hj₂⟩ := hrec.get hr'
    exact h.record_unique o o' r₁ r₂ hr₁ hr₂ (hj₁.trans (hj.trans hj₂.symm))
  message_record d m hm := by
    obtain ⟨r, hr, hj⟩ := h.message_record d m hm
    obtain ⟨r', hr', hj'⟩ := hrec.symm.get hr
    exact ⟨r', hr', hj'.trans hj⟩
  recoverable := hrecover
  invoked_nodup := h.invoked_nodup
  invoked_admitted := h.invoked_admitted
  invoked_started j hj hjq := h.invoked_started j hj (hq j hjq)
  calling_unique := h.calling_unique
  calling_fresh := h.calling_fresh
  started d j hd hjq := h.started d j hd (hq j hjq)

theorem Inv.congr {s t : DispatchSystem κ} (h : s.Inv) (hstore : t.store = s.store)
    (hd : t.dispatcher = s.dispatcher) (hinvoked : t.invoked = s.invoked)
    (hadmitted : t.admitted = s.admitted) : t.Inv := by
  obtain ⟨store, incarnation, now, free, dispatcher, invoked, admitted⟩ := t
  cases hstore
  cases hd
  cases hinvoked
  cases hadmitted
  exact ⟨h.record_admitted, h.record_unique, h.message_record, h.recoverable, h.invoked_nodup,
    h.invoked_admitted, h.invoked_started, h.calling_unique, h.calling_fresh, h.started⟩

theorem Inv.save {s : DispatchSystem κ} (h : s.Inv) (hst : job.status ≠ .queued) :
    Inv { s with store := s.store.saveJob jobId job } := by
  refine h.withStore (.of_eq rfl) (fun j hj => (saveJob_queued hst hj).2) ?_
  intro j hj
  exact h.recoverable j (saveJob_queued hst hj).2

theorem Inv.release {s : DispatchSystem κ} (h : s.Inv) (outboxId : String) :
    Inv { s with store := s.store.releaseAnalysisJobOutbox outboxId } := by
  have hq : ∀ j, (s.store.releaseAnalysisJobOutbox outboxId).queued j ↔ s.store.queued j :=
    fun j => queued_congr (releaseAnalysisJobOutbox_jobs ..)
  refine h.withStore (release_sameRecords s.store outboxId) (fun j => (hq j).mp) ?_
  intro j hj
  exact release_recoverable outboxId (h.recoverable j ((hq j).mp hj))

theorem Inv.deliver {s : DispatchSystem κ} (h : s.Inv)
    (hm : (s.dispatcher d).phase = .acknowledging m) :
    Inv { s with store := s.store.markAnalysisJobOutboxDelivered m.outboxId } := by
  have hq : ∀ j, (s.store.markAnalysisJobOutboxDelivered m.outboxId).queued j ↔ s.store.queued j :=
    fun j => queued_congr (markAnalysisJobOutboxDelivered_jobs ..)
  obtain ⟨r, hr, hj⟩ := h.message_record d m (by rw [hm]; rfl)
  refine h.withStore (delivered_sameRecords s.store m.outboxId) (fun j => (hq j).mp) ?_
  intro j hjq
  have hjq := (hq j).mp hjq
  refine delivered_recoverable hr ?_ (h.recoverable j hjq)
  rintro rfl
  exact h.started d m.jobId (by rw [hm]; rfl) (hj ▸ hjq)

theorem Inv.enqueue {s : DispatchSystem κ} {t : AnalysisJobStore} (h : s.Inv)
    (hjobs : t.jobs = s.store.jobs.insert jobId job)
    (houtbox : t.analysisJobOutbox = s.store.analysisJobOutbox.insert o ⟨jobId, .pending, none⟩)
    (hjobId : jobId ∉ s.admitted) (ho : o ∉ s.store.analysisJobOutbox) :
    Inv { s with store := t, admitted := jobId :: s.admitted } := by
  have hq : ∀ {j}, t.queued j → j = jobId ∨ s.store.queued j := by
    rintro j ⟨job', hjob', hst⟩
    rw [getJob, hjobs, Dict.get?_insert] at hjob'
    split at hjob'
    · rename_i hj
      exact .inl hj
    · exact .inr ⟨job', hjob', hst⟩
  have hget : ∀ {o' r}, t.analysisJobOutbox.get? o' = some r →
      (o' = o ∧ r.jobId = jobId) ∨ (o' ≠ o ∧ s.store.analysisJobOutbox.get? o' = some r) := by
    intro o' r hr
    rw [houtbox, Dict.get?_insert] at hr
    split at hr
    · rename_i heq
      obtain rfl := Option.some.inj hr
      exact .inl ⟨heq, rfl⟩
    · rename_i hne
      exact .inr ⟨hne, hr⟩
  have hold : ∀ {o' r}, s.store.analysisJobOutbox.get? o' = some r →
      t.analysisJobOutbox.get? o' = some r := by
    intro o' r hr
    have hne : o' ≠ o := by
      rintro rfl
      exact ho (Dict.mem_of_get? hr)
    rw [houtbox, Dict.get?_insert, if_neg hne, hr]
  have hnew : ∀ {j}, j ∈ s.admitted → t.queued j → s.store.queued j := by
    intro j hj hjq
    rcases hq hjq with rfl | hjq
    · exact absurd hj hjobId
    · exact hjq
  constructor
  · intro o' r hr
    rcases hget hr with ⟨-, rfl⟩ | ⟨-, hr⟩
    · exact List.mem_cons_self ..
    · exact List.mem_cons_of_mem _ (h.record_admitted o' r hr)
  · intro o₁ o₂ r₁ r₂ hr₁ hr₂ hj
    rcases hget hr₁ with ⟨ho₁, hj₁⟩ | ⟨-, hr₁⟩
    · rcases hget hr₂ with ⟨ho₂, -⟩ | ⟨-, hr₂⟩
      · exact ho₁.trans ho₂.symm
      · exact absurd (h.record_admitted o₂ r₂ hr₂) (by rw [← hj, hj₁]; exact hjobId)
    · rcases hget hr₂ with ⟨-, hj₂⟩ | ⟨-, hr₂⟩
      · exact absurd (h.record_admitted o₁ r₁ hr₁) (by rw [hj, hj₂]; exact hjobId)
      · exact h.record_unique o₁ o₂ r₁ r₂ hr₁ hr₂ hj
  · intro d m hm
    obtain ⟨r, hr, hj⟩ := h.message_record d m hm
    exact ⟨r, hold hr, hj⟩
  · intro j hj
    apply hasRecoverable_iff.mpr
    rcases hq hj with rfl | hj
    · exact ⟨o, ⟨j, .pending, none⟩, by rw [houtbox, Dict.get?_insert_self], rfl, by rintro ⟨⟩⟩
    · obtain ⟨o', r, hr, hj', hd⟩ := hasRecoverable_iff.mp (h.recoverable j hj)
      exact ⟨o', r, hold hr, hj', hd⟩
  · exact h.invoked_nodup
  · intro j hj
    exact List.mem_cons_of_mem _ (h.invoked_admitted j hj)
  · intro j hj hjq
    exact h.invoked_started j hj (hnew (h.invoked_admitted j hj) hjq)
  · exact h.calling_unique
  · exact h.calling_fresh
  · intro d j hd hjq
    obtain ⟨m, hm, rfl⟩ := DispatchPhase.started_message hd
    exact h.started d m.jobId hd (hnew (h.message_admitted hm) hjq)

theorem Inv.restart {s : DispatchSystem κ} (h : s.Inv) (incarnation : String) (n : ℕ)
    {t : AnalysisJobStore} (ht : t = .empty ∨ t = s.store.reapInterruptedJobs incarnation s.now) :
    Inv { s with
      store := t, incarnation, free := n, dispatcher := fun _ => ⟨.idle, none⟩ : DispatchSystem κ } := by
  have hidle : Inv { s with dispatcher := fun _ => ⟨.idle, none⟩ : DispatchSystem κ } :=
    ⟨h.record_admitted, h.record_unique, nofun, h.recoverable, h.invoked_nodup, h.invoked_admitted,
      h.invoked_started, nofun, nofun, nofun⟩
  have hnever : ∀ j, ¬AnalysisJobStore.empty.queued j := by
    rintro j ⟨job, hjob, -⟩
    cases hjob
  rcases ht with rfl | rfl
  · exact ⟨nofun, nofun, nofun, fun j hj => absurd hj (hnever j), h.invoked_nodup,
      h.invoked_admitted, fun j _ => hnever j, nofun, nofun, nofun⟩
  · have hreaped := hidle.withStore (.of_eq (reap_outbox s.store incarnation s.now))
      (fun j => reap_queued) (by
        intro j hj
        rw [hasRecoverableAnalysisJobOutbox, reap_outbox]
        exact h.recoverable j (reap_queued hj))
    exact hreaped.congr rfl rfl rfl rfl

section Steps
variable [DecidableEq κ]

/-- A dispatcher that moves on without a new message or a new claim to a runner. -/
theorem Inv.moveTo {s : DispatchSystem κ} (h : s.Inv)
    (hm : ∀ m, phase.message = some m →
      ∃ r, s.store.analysisJobOutbox.get? m.outboxId = some r ∧ r.jobId = m.jobId)
    (hc : ∀ j, phase.calling = some j → j ∉ s.invoked ∧
      ∀ d', d' ≠ d → (s.dispatcher d').phase.calling ≠ some j)
    (hs : ∀ j, phase.started = some j → ¬s.store.queued j) : (s.moveTo d phase copy).Inv := by
  have hat : ((s.moveTo d phase copy).dispatcher d).phase = phase := by
    simp [DispatchSystem.moveTo]
  have hother : ∀ d', d' ≠ d →
      ((s.moveTo d phase copy).dispatcher d').phase = (s.dispatcher d').phase := by
    intro d' hne
    simp [DispatchSystem.moveTo, hne]
  constructor
  · exact h.record_admitted
  · exact h.record_unique
  · intro d' m hd'
    by_cases hne : d' = d
    · subst hne
      exact hm m (hat ▸ hd')
    · exact h.message_record d' m (hother d' hne ▸ hd')
  · exact h.recoverable
  · exact h.invoked_nodup
  · exact h.invoked_admitted
  · exact h.invoked_started
  · intro d₁ d₂ j h₁ h₂
    by_cases hne₁ : d₁ = d
    · by_cases hne₂ : d₂ = d
      · exact hne₁.trans hne₂.symm
      · subst hne₁
        exact absurd (hother d₂ hne₂ ▸ h₂) ((hc j (hat ▸ h₁)).2 d₂ hne₂)
    · by_cases hne₂ : d₂ = d
      · subst hne₂
        exact absurd (hother d₁ hne₁ ▸ h₁) ((hc j (hat ▸ h₂)).2 d₁ hne₁)
      · exact h.calling_unique d₁ d₂ j (hother d₁ hne₁ ▸ h₁) (hother d₂ hne₂ ▸ h₂)
  · intro d' j hd'
    by_cases hne : d' = d
    · subst hne
      exact (hc j (hat ▸ hd')).1
    · exact h.calling_fresh d' j (hother d' hne ▸ hd')
  · intro d' j hd'
    by_cases hne : d' = d
    · subst hne
      exact hs j (hat ▸ hd')
    · exact h.started d' j (hother d' hne ▸ hd')

/-- A move within one message. -/
theorem Inv.advance {s : DispatchSystem κ} (h : s.Inv)
    (hm : phase.message = (s.dispatcher d).phase.message ∨ phase.message = none)
    (hc : ∀ j, phase.calling = some j → (s.dispatcher d).phase.calling = some j)
    (hs : ∀ j, phase.started = some j → ¬s.store.queued j) : (s.moveTo d phase copy).Inv := by
  refine h.moveTo ?_ ?_ hs
  · intro m hphase
    rcases hm with hm | hm
    · exact h.message_record d m (hm ▸ hphase)
    · rw [hm] at hphase
      cases hphase
  · intro j hj
    refine ⟨h.calling_fresh d j (hc j hj), ?_⟩
    intro d' hne hd'
    exact hne (h.calling_unique d' d j hd' (hc j hj))

theorem Inv.claim {s : DispatchSystem κ} {locked : String → Bool} (h : s.Inv)
    (hm : (s.store.claimAnalysisJobOutbox locked 1 s.now).2 = m :: rest)
    (hfree : ∀ d, (s.dispatcher d).phase.unmarked ≠ some m.jobId) :
    Inv ({ s with store := (s.store.claimAnalysisJobOutbox locked 1 s.now).1 }.moveTo d
      (.claimed m) none) := by
  obtain ⟨r, hr, hj, hqueued, hstore⟩ := claim_one hm
  rw [hstore]
  have hclaimed :
      Inv { s with store := s.store.putRecord m.outboxId ⟨m.jobId, .claimed, some s.now⟩ } := by
    refine h.withStore (.insert hr hj.symm) (fun j => (queued_congr rfl).mp) ?_
    intro j hjq
    exact recoverable_insert hr hj.symm (.inl nofun) (h.recoverable j ((queued_congr rfl).mp hjq))
  refine hclaimed.moveTo ?_ ?_ nofun
  · rintro _ ⟨⟩
    exact ⟨_, Dict.get?_insert_self .., rfl⟩
  · intro j hcall
    obtain rfl := Option.some.inj hcall
    refine ⟨fun hinv => h.invoked_started _ hinv hqueued, ?_⟩
    intro d' _ hd'
    rcases DispatchPhase.calling_cases hd' with hun | hst
    · exact hfree d' hun
    · exact h.started d' _ hst hqueued

theorem Inv.invoke {s : DispatchSystem κ} (h : s.Inv) (hm : (s.dispatcher d).phase = .marked m) :
    Inv ({ s with invoked := m.jobId :: s.invoked }.moveTo d (.running m) none) := by
  have hcall : (s.dispatcher d).phase.calling = some m.jobId := by rw [hm]; rfl
  have hmessage : (s.dispatcher d).phase.message = some m := by rw [hm]; rfl
  have hmoved : (s.moveTo d (.running m) none).Inv := by
    refine h.advance (.inl hmessage.symm) nofun nofun
  have hleft : ∀ d', ((s.moveTo d (.running m) none).dispatcher d').phase.calling ≠ some m.jobId := by
    intro d' hd'
    by_cases hne : d' = d
    · subst hne
      simp [DispatchSystem.moveTo, DispatchPhase.calling] at hd'
    · simp only [DispatchSystem.moveTo, Function.update_of_ne hne] at hd'
      exact hne (h.calling_unique d' d _ hd' hcall)
  exact {
    record_admitted := hmoved.record_admitted
    record_unique := hmoved.record_unique
    message_record := hmoved.message_record
    recoverable := hmoved.recoverable
    invoked_nodup := List.nodup_cons.mpr ⟨h.calling_fresh d _ hcall, h.invoked_nodup⟩
    invoked_admitted := by
      intro j hj
      rcases List.mem_cons.mp hj with rfl | hj
      · exact h.message_admitted hmessage
      · exact h.invoked_admitted j hj
    invoked_started := by
      intro j hj
      rcases List.mem_cons.mp hj with rfl | hj
      · exact h.started d _ (by rw [hm]; rfl)
      · exact h.invoked_started j hj
    calling_unique := hmoved.calling_unique
    calling_fresh := by
      intro d' j hd' hj
      rcases List.mem_cons.mp hj with rfl | hj
      · exact hleft d' hd'
      · exact hmoved.calling_fresh d' j hd' hj
    started := hmoved.started }

theorem Inv.admitted {s : DispatchSystem κ} (h : s.Inv) (hjobId : ids.jobId ∉ s.admitted)
    (houtbox : ids.outboxId ∉ s.store.analysisJobOutbox) :
    (s.step mode ctx n (.admitParseBoundJob request ids)).Inv := by
  have hstep := AnalysisJobStore.admitted { ctx with incarnation := s.incarnation } s.store request
    ids s.now
  simp only [DispatchSystem.step]
  generalize s.store.admitParseBoundJob { ctx with incarnation := s.incarnation } request ids s.now =
    out at hstep ⊢
  cases hstep with
  | refused code => exact h
  | replayed => exact h
  | spent => exact h.withStore (.of_eq rfl) (fun j => (queued_congr rfl).mp) h.recoverable
  | created hkey htoken hadmits hjob =>
    simp only [(JobRequest.newJob_ok hjob).1]
    exact h.enqueue (recordAdmission_jobs ..) (recordAdmission_outbox ..) hjobId houtbox

theorem Inv.step {s : DispatchSystem κ} (h : s.Inv) (hfresh : s.DrawsFresh a)
    (hclaim : s.NoTakeover a) : (s.step mode ctx n a).Inv := by
  cases a with
  | tick elapsed => exact h.congr rfl rfl rfl rfl
  | registerParseToken nonceHash userId specVersion specHash expiresAt =>
    have hq : ∀ j, (s.store.registerParseToken nonceHash userId specVersion specHash
        expiresAt).queued j ↔ s.store.queued j := fun j => queued_congr (registerParseToken_jobs ..)
    have houtbox := registerParseToken_outbox s.store nonceHash userId specVersion specHash expiresAt
    refine h.withStore (.of_eq houtbox) (fun j => (hq j).mp) ?_
    intro j hj
    rw [hasRecoverableAnalysisJobOutbox, houtbox]
    exact h.recoverable j ((hq j).mp hj)
  | admitParseBoundJob request ids => exact h.admitted hfresh.1 hfresh.2
  | claim d locked =>
    simp only [DispatchSystem.step]
    split
    · split
      · exact h
      · rename_i m rest hm
        exact h.claim hm (hclaim m (hm ▸ List.mem_cons_self ..))
    · exact h
  | fetch d =>
    simp only [DispatchSystem.step]
    split
    · rename_i m hphase
      split
      · exact (h.release m.outboxId).advance (.inr rfl) (forall_of_eq_none rfl) (forall_of_eq_none rfl)
      · refine h.advance (.inl ?_) ?_ (forall_of_eq_none rfl)
        · rw [hphase]
          rfl
        · rw [hphase]
          exact fun _ => id
    · exact h
  | acquireSlot d =>
    simp only [DispatchSystem.step]
    split
    · rename_i m hphase
      split
      · exact h
      · refine (h.congr (t := { s with free := s.free - 1 }) rfl rfl rfl rfl).advance (.inl ?_) ?_ (forall_of_eq_none rfl)
        · simp only [hphase]
          rfl
        · simp only [hphase]
          exact fun _ => id
    · exact h
  | load d =>
    simp only [DispatchSystem.step]
    split
    · exact h
    · exact h.advance (.inl rfl) (fun _ => id) (h.started d)
  | save d write =>
    simp only [DispatchSystem.step]
    split
    · rename_i m job next hmessage _ hafter
      split
      · rename_i job' hw
        have hst := DispatchPhase.after_not_queued hafter hw
        have hsaved : Inv { s with store := s.store.saveJob m.jobId job' } := h.save hst
        refine hsaved.advance ?_ ?_ ?_
        · exact .inl (DispatchPhase.after_message hafter)
        · exact fun _ => DispatchPhase.after_calling hafter
        · intro j hj hq
          obtain ⟨m', hm', rfl⟩ := DispatchPhase.started_message hj
          rw [DispatchPhase.after_message hafter, hmessage, Option.some.injEq] at hm'
          subst hm'
          exact (saveJob_queued hst hq).1 rfl
      · exact h.advance (.inl hmessage.symm) (forall_of_eq_none rfl) (forall_of_eq_none rfl)
    · exact h
  | invoke d =>
    simp only [DispatchSystem.step]
    split
    · rename_i m hphase
      exact h.invoke hphase
    · exact h
  | escape d =>
    simp only [DispatchSystem.step]
    split
    all_goals first
      | exact h
      | (rename_i m hphase; exact h.advance (.inl (by rw [hphase]; rfl)) (forall_of_eq_none rfl) (forall_of_eq_none rfl))
  | settle d =>
    simp only [DispatchSystem.step]
    split
    · rename_i m hphase
      split
      · rename_i job hjob
        split
        · rename_i hterminal
          refine h.advance (.inl ?_) (forall_of_eq_none rfl) ?_
          · rw [hphase]
            rfl
          · intro j hj hq
            obtain rfl := Option.some.inj hj
            obtain ⟨job', hjob', hqueued⟩ := hq
            rw [hjob, Option.some.injEq] at hjob'
            subst hjob'
            simp [hqueued, AnalysisJobStatus.terminal] at hterminal
        · exact h
      · exact h
    · exact h
  | acknowledge d =>
    simp only [DispatchSystem.step]
    split
    · rename_i m hphase
      exact (h.deliver hphase).advance (.inr rfl) (forall_of_eq_none rfl) (forall_of_eq_none rfl)
    · exact h
  | release d =>
    simp only [DispatchSystem.step]
    split
    all_goals first
      | exact h
      | (rename_i m hphase; exact (h.release m.outboxId).advance (.inr rfl) (forall_of_eq_none rfl) (forall_of_eq_none rfl))
  | abandon d =>
    simp only [DispatchSystem.step]
    split
    all_goals first
      | exact h
      | exact h.advance (.inr rfl) (forall_of_eq_none rfl) (forall_of_eq_none rfl)
  | occupySlot =>
    simp only [DispatchSystem.step]
    split
    · exact h
    · exact h.congr rfl rfl rfl rfl
  | vacateSlot => exact h.congr rfl rfl rfl rfl
  | restart incarnation =>
    cases mode with
    | memory => exact h.restart incarnation n (.inl rfl)
    | persistent => exact h.restart incarnation n (.inr rfl)

theorem Inv.exec {s : DispatchSystem κ} {acts : List (DispatchAction κ)} (h : s.Inv)
    (hrun : LeasedRun mode ctx n s acts) : (s.exec mode ctx n acts).Inv := by
  induction hrun with
  | nil => exact h
  | cons hfresh hclaim _ ih => exact ih (h.step hfresh hclaim)

/-- In a run whose claims take nothing over, no runner is called twice, and a queued job can
still be claimed. -/
theorem runner_at_most_once {acts : List (DispatchAction κ)}
    (hrun : LeasedRun mode ctx n (DispatchSystem.start process n) acts) :
    let s := (DispatchSystem.start process n).exec mode ctx n acts
    (∀ j, s.invoked.count j ≤ 1) ∧
      ∀ j ∈ s.admitted, s.store.queued j → s.store.hasRecoverableAnalysisJobOutbox j = true := by
  have h := (Inv.start process n).exec hrun
  refine ⟨fun j => List.nodup_iff_count_le_one.mp h.invoked_nodup j, ?_⟩
  intro j _ hj
  exact h.recoverable j hj

end Steps

section Runs
open JobSystem

def hourToken (nonce : String) (spec : Char) : DispatchAction ℕ :=
  .registerParseToken nonce "user" "v1" (hashOf spec) (3600 * 1000000)

def admission (nonce : String) (spec : Char) (key : String) (n : String) : DispatchAction ℕ :=
  .admitParseBoundJob ⟨"query", nonce, "user", "v1", hashOf spec, none, key⟩
    ⟨"job_" ++ n, "outbox_" ++ n, "appendix_" ++ n⟩

/-- A dispatcher with a slot runs its job up to the call of the runner. -/
def startRun (d : ℕ) : List (DispatchAction ℕ) :=
  [.acquireSlot d, .load d, .save d (.updateStatus .running .interpreting none none none), .invoke d]

def endRun (d : ℕ) : List (DispatchAction ℕ) :=
  [.load d, .save d (.complete readyEnvelope none), .settle d, .acknowledge d]

def twoAdmissions : List (DispatchAction ℕ) :=
  [hourToken "n1" '1', hourToken "n2" '2', admission "n1" '1' "k1" "1", admission "n2" '2' "k2" "2"]

/-- The first job runs for 301 seconds in the only slot; the second job's dispatcher waits for it,
and a third dispatcher claims the same job again. -/
def takeoverRun : List (DispatchAction ℕ) :=
  twoAdmissions ++ [.claim 1 fun _ => false, .fetch 1] ++ startRun 1 ++
    [.claim 2 fun _ => false, .fetch 2, .tick (301 * 1000000), .claim 3 fun _ => false, .fetch 3] ++
    endRun 1 ++ startRun 2 ++ endRun 2 ++ startRun 3

theorem one_claim :
    let s := (start "process" 1).exec .persistent plainContext 1
      [hourToken "n1" '1', admission "n1" '1' "k1" "1", .claim 1 fun _ => false]
    (∀ j, s.invoked.count j ≤ 1) ∧
      ∀ j ∈ s.admitted, s.store.queued j → s.store.hasRecoverableAnalysisJobOutbox j = true := by
  apply runner_at_most_once
  refine .cons trivial trivial (.cons ⟨nofun, ?_⟩ trivial (.cons trivial ?_ .nil))
  · decide +kernel
  · intro m _ d hd
    cases hd

theorem waiting_job_runs_twice :
    (¬∀ j, ((start "process" 1).exec .memory plainContext 1 takeoverRun).invoked.count j ≤ 1) ∧
      ¬∀ j, ((start "process" 1).exec .persistent plainContext 1 takeoverRun).invoked.count j ≤ 1 := by
  constructor
  · intro h
    exact absurd (h "job_2") (by decide +kernel)
  · intro h
    exact absurd (h "job_2") (by decide +kernel)

end Runs
end DispatchSystem
end QuantAgent
