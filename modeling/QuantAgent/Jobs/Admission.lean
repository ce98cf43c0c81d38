import QuantAgent.Jobs.Finality

namespace QuantAgent
set_option autoImplicit true

/-- A job that was created, with what its admission presented. -/
structure Grant where
  request : AdmissionRequest
  ids : DrawnIds
deriving DecidableEq

/-- A store holds the jobs of a list of grants and nothing else: one job for each key and each
nonce, found by its key, with one dispatch record. -/
structure AdmissionLaw (s : AnalysisJobStore) (grants : List Grant) : Prop where
  job_of_grant : ∀ g ∈ grants, ∃ job, s.getJob g.ids.jobId = some job ∧
    job.jobId = g.ids.jobId ∧ job.userId = some g.request.userId ∧
    job.clientIdempotencyKey = some g.request.clientIdempotencyKey
  grant_of_job : ∀ j job, s.getJob j = some job → ∃ g ∈ grants, g.ids.jobId = j
  key_of_grant : ∀ g ∈ grants,
    s.parseIdempotency.get? (g.request.userId, g.request.clientIdempotencyKey) =
      some (g.request.specHash, g.ids.jobId)
  grant_of_key : ∀ u k h j, s.parseIdempotency.get? (u, k) = some (h, j) →
    ∃ g ∈ grants, g.request.userId = u ∧ g.request.clientIdempotencyKey = k
  token_of_grant : ∀ g ∈ grants, ∃ token, s.parseTokens.get? g.request.nonceHash = some token ∧
    token.consumed = true ∧ token.userId = g.request.userId ∧
    token.specVersion = g.request.specVersion ∧ token.specHash = g.request.specHash
  outbox_of_grant : ∀ g ∈ grants, ∃ r, s.analysisJobOutbox.get? g.ids.outboxId = some r ∧
    r.jobId = g.ids.jobId
  grant_of_outbox : ∀ o r, s.analysisJobOutbox.get? o = some r →
    ∃ g ∈ grants, g.ids.outboxId = o ∧ g.ids.jobId = r.jobId
  job_unique : ∀ g ∈ grants, ∀ g' ∈ grants, g.ids.jobId = g'.ids.jobId → g = g'
  nonce_unique : ∀ g ∈ grants, ∀ g' ∈ grants, g.request.nonceHash = g'.request.nonceHash → g = g'

namespace AdmissionLaw

theorem empty : AdmissionLaw .empty [] where
  job_of_grant := nofun
  grant_of_job _ _ h := by cases h
  key_of_grant := nofun
  grant_of_key _ _ _ _ h := by cases h
  token_of_grant := nofun
  outbox_of_grant := nofun
  grant_of_outbox _ _ h := by cases h
  job_unique := nofun
  nonce_unique := nofun

theorem key_unique (h : AdmissionLaw s grants) (hg : g ∈ grants) (hg' : g' ∈ grants)
    (hu : g.request.userId = g'.request.userId)
    (hk : g.request.clientIdempotencyKey = g'.request.clientIdempotencyKey) : g = g' := by
  have hkey := h.key_of_grant g hg
  rw [hu, hk, h.key_of_grant g' hg', Option.some.injEq, Prod.mk.injEq] at hkey
  exact h.job_unique g hg g' hg' hkey.2.symm

/-- A change that keeps the jobs, the keys and the records' jobs, and every spent token. -/
theorem congr {s t : AnalysisJobStore} (h : AdmissionLaw s grants) (hjobs : t.jobs = s.jobs)
    (hkeys : t.parseIdempotency = s.parseIdempotency)
    (houtbox : t.analysisJobOutbox = s.analysisJobOutbox)
    (htokens : ∀ n token, s.parseTokens.get? n = some token → token.consumed = true →
      t.parseTokens.get? n = some token) : AdmissionLaw t grants where
  job_of_grant g hg := by
    rw [AnalysisJobStore.getJob, hjobs]
    exact h.job_of_grant g hg
  grant_of_job j job hj := by
    rw [AnalysisJobStore.getJob, hjobs] at hj
    exact h.grant_of_job j job hj
  key_of_grant g hg := by
    rw [hkeys]
    exact h.key_of_grant g hg
  grant_of_key u k specHash j hk := by
    rw [hkeys] at hk
    exact h.grant_of_key u k specHash j hk
  token_of_grant g hg := by
    obtain ⟨token, htoken, hspent, hrest⟩ := h.token_of_grant g hg
    exact ⟨token, htokens _ token htoken hspent, hspent, hrest⟩
  outbox_of_grant g hg := by
    rw [houtbox]
    exact h.outbox_of_grant g hg
  grant_of_outbox o r hr := by
    rw [houtbox] at hr
    exact h.grant_of_outbox o r hr
  job_unique := h.job_unique
  nonce_unique := h.nonce_unique

theorem register (h : AdmissionLaw s grants) (nonceHash userId specVersion specHash : String)
    (expiresAt : Timestamp) :
    AdmissionLaw (s.registerParseToken nonceHash userId specVersion specHash expiresAt) grants := by
  unfold AnalysisJobStore.registerParseToken
  split
  · exact h
  · rename_i hnew
    refine h.congr rfl rfl rfl ?_
    intro n token htoken _
    have hne : n ≠ nonceHash := by
      rintro rfl
      exact hnew (Dict.mem_of_get? htoken)
    change (s.parseTokens.insert nonceHash _).get? n = some token
    rw [Dict.get?_insert, if_neg hne, htoken]

theorem spend (h : AdmissionLaw s grants) (htoken : s.parseTokens.get? nonce = some token)
    (hfresh : token.consumed = false) : AdmissionLaw (s.spendToken nonce token) grants := by
  refine h.congr rfl rfl rfl ?_
  intro n token' htoken' hspent
  have hne : n ≠ nonce := by
    rintro rfl
    rw [htoken, Option.some.injEq] at htoken'
    rw [← htoken', hfresh] at hspent
    cases hspent
  change (s.parseTokens.insert nonce _).get? n = some token'
  rw [Dict.get?_insert, if_neg hne, htoken']

/-- A job created under a free key for the holder of an unspent token. -/
theorem grant (h : AdmissionLaw s grants)
    (hkey : s.parseIdempotency.get? (r.userId, r.clientIdempotencyKey) = none)
    (htoken : s.parseTokens.get? r.nonceHash = some token) (hadmissions : token.admits r now = true)
    (hjob : r.jobRequest.newJob ctx ids.jobId created = .ok job)
    (hjobId : s.getJob ids.jobId = none) (houtbox : s.analysisJobOutbox.get? ids.outboxId = none) :
    AdmissionLaw ((s.spendToken r.nonceHash token).recordAdmission r ids job)
      (⟨r, ids⟩ :: grants) := by
  obtain ⟨hid, -, huser, hclient, -⟩ := JobRequest.newJob_ok hjob
  simp only [ParseToken.admits, Bool.and_eq_true, decide_eq_true_eq, Bool.not_eq_true'] at hadmissions
  obtain ⟨⟨hu, hv, hh, -⟩, hfresh⟩ := hadmissions
  have hspent := h.spend htoken hfresh
  have hjobs : ∀ j, ((s.spendToken r.nonceHash token).recordAdmission r ids job).getJob j =
      if j = ids.jobId then some job else s.getJob j := by
    intro j
    rw [AnalysisJobStore.getJob, AnalysisJobStore.recordAdmission_jobs, Dict.get?_insert]
    rfl
  have hkeys : ∀ k, ((s.spendToken r.nonceHash token).recordAdmission r ids job).parseIdempotency.get? k =
      if k = (r.userId, r.clientIdempotencyKey) then some (r.specHash, ids.jobId)
      else s.parseIdempotency.get? k := by
    intro k
    rw [AnalysisJobStore.recordAdmission_parseIdempotency, Dict.get?_insert]
    rfl
  have hrecords : ∀ o, ((s.spendToken r.nonceHash token).recordAdmission r ids job).analysisJobOutbox.get? o =
      if o = ids.outboxId then some ⟨ids.jobId, .pending, none⟩ else s.analysisJobOutbox.get? o := by
    intro o
    rw [AnalysisJobStore.recordAdmission_outbox, Dict.get?_insert]
    rfl
  have hold : ∀ g ∈ grants, g.ids.jobId ≠ ids.jobId := by
    intro g hg heq
    obtain ⟨job', hjob', -⟩ := h.job_of_grant g hg
    rw [heq, hjobId] at hjob'
    cases hjob'
  have hnonce : ∀ g ∈ grants, g.request.nonceHash ≠ r.nonceHash := by
    intro g hg heq
    obtain ⟨token', htoken', hspent', -⟩ := h.token_of_grant g hg
    rw [heq, htoken, Option.some.injEq] at htoken'
    rw [← htoken', hfresh] at hspent'
    cases hspent'
  constructor
  · intro g hg
    rw [hjobs]
    rcases List.mem_cons.mp hg with rfl | hg
    · exact ⟨job, if_pos rfl, hid, huser, hclient⟩
    · rw [if_neg (hold g hg)]
      exact h.job_of_grant g hg
  · intro j job' hj
    rw [hjobs] at hj
    split at hj
    · rename_i heq
      exact ⟨_, List.mem_cons_self .., heq.symm⟩
    · obtain ⟨g, hg, hgj⟩ := h.grant_of_job j job' hj
      exact ⟨g, List.mem_cons_of_mem _ hg, hgj⟩
  · intro g hg
    rw [hkeys]
    rcases List.mem_cons.mp hg with rfl | hg
    · exact if_pos rfl
    · have hne : (g.request.userId, g.request.clientIdempotencyKey) ≠
          (r.userId, r.clientIdempotencyKey) := by
        intro heq
        have hg := h.key_of_grant g hg
        rw [heq, hkey] at hg
        cases hg
      rw [if_neg hne]
      exact h.key_of_grant g hg
  · intro u k specHash j hk
    rw [hkeys] at hk
    split at hk
    · rename_i heq
      obtain ⟨hu', hk'⟩ := Prod.mk.inj heq
      exact ⟨_, List.mem_cons_self .., hu'.symm, hk'.symm⟩
    · obtain ⟨g, hg, hgk⟩ := h.grant_of_key u k specHash j hk
      exact ⟨g, List.mem_cons_of_mem _ hg, hgk⟩
  · intro g hg
    rw [AnalysisJobStore.recordAdmission_parseTokens]
    rcases List.mem_cons.mp hg with rfl | hg
    · exact ⟨{ token with consumed := true }, Dict.get?_insert_self .., rfl, hu, hv, hh⟩
    · exact hspent.token_of_grant g hg
  · intro g hg
    rcases List.mem_cons.mp hg with rfl | hg
    · exact ⟨_, (hrecords _).trans (if_pos rfl), rfl⟩
    · obtain ⟨record, hrecord, hj⟩ := h.outbox_of_grant g hg
      have hne : g.ids.outboxId ≠ ids.outboxId := by
        intro heq
        rw [heq, houtbox] at hrecord
        cases hrecord
      exact ⟨record, by rw [hrecords, if_neg hne, hrecord], hj⟩
  · intro o record ho
    rw [hrecords] at ho
    split at ho
    · rename_i heq
      obtain rfl := Option.some.inj ho
      exact ⟨_, List.mem_cons_self .., heq.symm, rfl⟩
    · obtain ⟨g, hg, hgo⟩ := h.grant_of_outbox o record ho
      exact ⟨g, List.mem_cons_of_mem _ hg, hgo⟩
  · intro g hg g' hg' heq
    rcases List.mem_cons.mp hg with rfl | hg
    · rcases List.mem_cons.mp hg' with rfl | hg'
      · rfl
      · exact absurd heq.symm (hold g' hg')
    · rcases List.mem_cons.mp hg' with rfl | hg'
      · exact absurd heq (hold g hg)
      · exact h.job_unique g hg g' hg' heq
  · intro g hg g' hg' heq
    rcases List.mem_cons.mp hg with rfl | hg
    · rcases List.mem_cons.mp hg' with rfl | hg'
      · rfl
      · exact absurd heq.symm (hnonce g' hg')
    · rcases List.mem_cons.mp hg' with rfl | hg'
      · exact absurd heq (hnonce g hg)
      · exact h.nonce_unique g hg g' hg' heq

/-- A lookup by key answers for the grant of that key, and for its spec only. -/
theorem find_eq (h : AdmissionLaw s grants) (hg : g ∈ grants) (specHash : String) :
    (specHash = g.request.specHash ∧ ∃ job, job.jobId = g.ids.jobId ∧
      s.findParseBoundJob g.request.userId specHash g.request.clientIdempotencyKey = .ok (some job)) ∨
    (specHash ≠ g.request.specHash ∧
      s.findParseBoundJob g.request.userId specHash g.request.clientIdempotencyKey =
        .error (.admission "idempotency_key_reused")) := by
  obtain ⟨job, hjob, hid, -⟩ := h.job_of_grant g hg
  unfold AnalysisJobStore.findParseBoundJob
  simp only [h.key_of_grant g hg]
  by_cases hh : specHash = g.request.specHash
  · subst hh
    refine .inl ⟨rfl, job, hid, ?_⟩
    rw [if_neg (not_not.mpr rfl), hjob]
  · exact .inr ⟨hh, if_pos (Ne.symm hh)⟩

theorem find_none (h : AdmissionLaw s grants)
    (hnone : ∀ g ∈ grants, ¬(g.request.userId = user ∧ g.request.clientIdempotencyKey = key))
    (specHash : String) : s.findParseBoundJob user specHash key = .ok none := by
  unfold AnalysisJobStore.findParseBoundJob
  cases hk : s.parseIdempotency.get? (user, key) with
  | none => rfl
  | some e =>
    obtain ⟨g, hg, hgk⟩ := h.grant_of_key user key e.1 e.2 hk
    exact absurd hgk (hnone g hg)

theorem find_ok (h : AdmissionLaw s grants)
    (hfind : s.findParseBoundJob user specHash key = .ok (some job)) :
    ∃ g ∈ grants, g.request.userId = user ∧ g.request.clientIdempotencyKey = key ∧
      g.request.specHash = specHash ∧ g.ids.jobId = job.jobId := by
  by_cases hex : ∃ g ∈ grants, g.request.userId = user ∧ g.request.clientIdempotencyKey = key
  · obtain ⟨g, hg, rfl, rfl⟩ := hex
    refine ⟨g, hg, rfl, rfl, ?_⟩
    rcases h.find_eq hg specHash with ⟨hh, job', hid, hok⟩ | ⟨-, herr⟩
    · rw [hfind, Except.ok.injEq, Option.some.injEq] at hok
      exact ⟨hh.symm, hok ▸ hid.symm⟩
    · rw [hfind] at herr
      cases herr
  · have hnone := h.find_none (fun g hg hgk => hex ⟨g, hg, hgk⟩) specHash
    rw [hfind] at hnone
    cases hnone

end AdmissionLaw

/-- The answers calls have received. -/
abbrev AdmissionAnswers := List (AdmissionRequest × Except JobError ParseBoundJobAdmission)

/-- Every job handed out is that of a grant with the caller's user, key and spec. -/
def AnswersGranted (answers : AdmissionAnswers) (grants : List Grant) : Prop :=
  ∀ r adm, (r, .ok adm) ∈ answers → ∃ g ∈ grants, g.ids.jobId = adm.job.jobId ∧
    g.request.userId = r.userId ∧ g.request.clientIdempotencyKey = r.clientIdempotencyKey ∧
    g.request.specHash = r.specHash ∧ (adm.created = true → g.request = r)

theorem AnswersGranted.error (h : AnswersGranted answers grants) (r : AdmissionRequest)
    (e : JobError) : AnswersGranted ((r, .error e) :: answers) grants := by
  intro r' adm hmem
  rcases List.mem_cons.mp hmem with heq | hmem
  · cases heq
  · exact h r' adm hmem

theorem AnswersGranted.replay (h : AnswersGranted answers grants) (hlaw : AdmissionLaw s grants)
    (hfind : s.findParseBoundJob r.userId r.specHash r.clientIdempotencyKey = .ok (some job)) :
    AnswersGranted ((r, .ok ⟨job, false, none⟩) :: answers) grants := by
  intro r' adm hmem
  rcases List.mem_cons.mp hmem with heq | hmem
  · cases heq
    obtain ⟨g, hg, hu, hk, hh, hj⟩ := hlaw.find_ok hfind
    exact ⟨g, hg, hj, hu, hk, hh, nofun⟩
  · exact h r' adm hmem

theorem AnswersGranted.create (h : AnswersGranted answers grants) {job : AnalysisJob}
    (hjob : job.jobId = ids.jobId) :
    AnswersGranted ((r, .ok ⟨job, true, outboxId⟩) :: answers) (⟨r, ids⟩ :: grants) := by
  intro r' adm hmem
  rcases List.mem_cons.mp hmem with heq | hmem
  · cases heq
    exact ⟨_, List.mem_cons_self .., hjob.symm, rfl, rfl, rfl, fun _ => rfl⟩
  · obtain ⟨g, hg, hrest⟩ := h r' adm hmem
    exact ⟨g, List.mem_cons_of_mem _ hg, hrest⟩

/-- What admission promises about a store, the jobs it created and the answers it gave. -/
structure AdmissionGuarantee (s : AnalysisJobStore) (grants : List Grant)
    (answers : AdmissionAnswers) : Prop where
  one_job_per_key : ∀ j j' job job', s.getJob j = some job → s.getJob j' = some job' →
    job.userId = job'.userId → job.clientIdempotencyKey = job'.clientIdempotencyKey → j = j'
  every_job_granted : ∀ j job, s.getJob j = some job → ∃ g ∈ grants, g.ids.jobId = j
  one_job_per_nonce : ∀ g ∈ grants, ∀ g' ∈ grants,
    g.request.nonceHash = g'.request.nonceHash → g.ids.jobId = g'.ids.jobId
  created_as_registered : ∀ g ∈ grants, ∃ token,
    s.parseTokens.get? g.request.nonceHash = some token ∧ token.consumed = true ∧
      token.userId = g.request.userId ∧ token.specVersion = g.request.specVersion ∧
      token.specHash = g.request.specHash
  answers_granted : AnswersGranted answers grants
  replay_found : ∀ g ∈ grants, ∃ job, job.jobId = g.ids.jobId ∧
    s.findParseBoundJob g.request.userId g.request.specHash g.request.clientIdempotencyKey =
      .ok (some job)
  other_spec_refused : ∀ g ∈ grants, ∀ specHash, specHash ≠ g.request.specHash →
    s.findParseBoundJob g.request.userId specHash g.request.clientIdempotencyKey =
      .error (.admission "idempotency_key_reused")
  one_outbox_record : ∀ j job, s.getJob j = some job →
    ∃! o, ∃ r, s.analysisJobOutbox.get? o = some r ∧ r.jobId = j

theorem AdmissionLaw.guarantee (h : AdmissionLaw s grants) (ha : AnswersGranted answers grants) :
    AdmissionGuarantee s grants answers where
  one_job_per_key j j' job job' hj hj' hu hk := by
    obtain ⟨g, hg, rfl⟩ := h.grant_of_job j job hj
    obtain ⟨g', hg', rfl⟩ := h.grant_of_job j' job' hj'
    obtain ⟨job₁, hjob₁, -, hu₁, hk₁⟩ := h.job_of_grant g hg
    obtain ⟨job₂, hjob₂, -, hu₂, hk₂⟩ := h.job_of_grant g' hg'
    obtain rfl := Option.some.inj (hj.symm.trans hjob₁)
    obtain rfl := Option.some.inj (hj'.symm.trans hjob₂)
    rw [hu₁, hu₂, Option.some.injEq] at hu
    rw [hk₁, hk₂, Option.some.injEq] at hk
    rw [h.key_unique hg hg' hu hk]
  every_job_granted := h.grant_of_job
  one_job_per_nonce g hg g' hg' hn := by rw [h.nonce_unique g hg g' hg' hn]
  created_as_registered := h.token_of_grant
  answers_granted := ha
  replay_found g hg := by
    rcases h.find_eq hg g.request.specHash with ⟨-, hfound⟩ | ⟨hne, -⟩
    · exact hfound
    · exact absurd rfl hne
  other_spec_refused g hg specHash hne := by
    rcases h.find_eq hg specHash with ⟨heq, -⟩ | ⟨-, hrefused⟩
    · exact absurd heq hne
    · exact hrefused
  one_outbox_record j job hj := by
    obtain ⟨g, hg, rfl⟩ := h.grant_of_job j job hj
    refine ⟨g.ids.outboxId, h.outbox_of_grant g hg, ?_⟩
    rintro o ⟨r, hr, hrj⟩
    obtain ⟨g', hg', ho, hj'⟩ := h.grant_of_outbox o r hr
    rw [← ho, h.job_unique g' hg' g hg (hj'.trans hrj)]

/-- A replay is answered from its key. -/
theorem AnalysisJobStore.admit_of_find (ctx : JobContext) (s : AnalysisJobStore)
    (r : AdmissionRequest) (ids : DrawnIds) (now : Timestamp) :
    match s.findParseBoundJob r.userId r.specHash r.clientIdempotencyKey with
    | .ok (some job) => s.admitParseBoundJob ctx r ids now = (s, .ok ⟨job, false, none⟩)
    | .error e => s.admitParseBoundJob ctx r ids now = (s, .error e)
    | .ok none => s.parseIdempotency.get? (r.userId, r.clientIdempotencyKey) = none := by
  unfold findParseBoundJob admitParseBoundJob
  cases hk : s.parseIdempotency.get? (r.userId, r.clientIdempotencyKey) with
  | none => rfl
  | some e =>
    obtain ⟨existingHash, jobId⟩ := e
    by_cases hh : existingHash = r.specHash
    · cases hj : s.getJob jobId with
      | none => simp [hh, hj]
      | some job => simp [hh, hj]
    · simp [hh]

/-- A request under the key of a grant. -/
def AdmissionRequest.SameKey (r : AdmissionRequest) (g : Grant) : Prop :=
  r.userId = g.request.userId ∧ r.clientIdempotencyKey = g.request.clientIdempotencyKey

/-- The answer a grant gives to its key: its job for its spec, a conflict for any other. -/
def Grant.Replays (g : Grant) (r : AdmissionRequest)
    (out : Except JobError ParseBoundJobAdmission) : Prop :=
  (r.specHash = g.request.specHash ∧ ∃ job, job.jobId = g.ids.jobId ∧ out = .ok ⟨job, false, none⟩) ∨
    (r.specHash ≠ g.request.specHash ∧ out = .error (.admission "idempotency_key_reused"))

theorem AdmissionLaw.replays_admitted (h : AdmissionLaw s grants) (hg : g ∈ grants)
    (hkey : r.SameKey g) : g.Replays r (s.admitParseBoundJob ctx r ids now).2 := by
  have hadmission := AnalysisJobStore.admit_of_find ctx s r ids now
  rw [hkey.1, hkey.2] at hadmission
  rcases h.find_eq hg r.specHash with ⟨hh, job, hid, hfind⟩ | ⟨hh, hfind⟩
  · simp only [hfind] at hadmission
    exact .inl ⟨hh, job, hid, by rw [hadmission]⟩
  · simp only [hfind] at hadmission
    exact .inr ⟨hh, by rw [hadmission]⟩

/-- The in-memory store under calls that each hold its lock. -/
structure AdmissionRun where
  store : AnalysisJobStore
  grants : List Grant
  answers : AdmissionAnswers

inductive AdmissionAction
  | register (nonceHash userId specVersion specHash : String) (expiresAt : Timestamp)
  | admitJob (request : AdmissionRequest) (ids : DrawnIds) (now : Timestamp)
  | find (userId specHash clientIdempotencyKey : String)

namespace AdmissionRun

def start : AdmissionRun := ⟨.empty, [], []⟩

def step (ctx : JobContext) (s : AdmissionRun) : AdmissionAction → AdmissionRun
  | .register nonceHash userId specVersion specHash expiresAt =>
    { s with
      store := s.store.registerParseToken nonceHash userId specVersion specHash expiresAt }
  | .admitJob request ids now =>
    let out := s.store.admitParseBoundJob ctx request ids now
    { store := out.1
      grants := match out.2 with
        | .ok ⟨_, true, _⟩ => ⟨request, ids⟩ :: s.grants
        | _ => s.grants
      answers := (request, out.2) :: s.answers }
  | .find _ _ _ => s

def exec (ctx : JobContext) (s : AdmissionRun) (acts : List AdmissionAction) : AdmissionRun :=
  acts.foldl (step ctx) s

/-- `uuid4` draws ids not in use. -/
def DrawsFresh (s : AdmissionRun) : AdmissionAction → Prop
  | .admitJob _ ids _ => s.store.getJob ids.jobId = none ∧
      s.store.analysisJobOutbox.get? ids.outboxId = none
  | _ => True

inductive FreshRun (ctx : JobContext) : AdmissionRun → List AdmissionAction → Prop
  | nil : FreshRun ctx s []
  | cons (ha : s.DrawsFresh a) (hrest : FreshRun ctx (s.step ctx a) acts) :
      FreshRun ctx s (a :: acts)

structure Inv (s : AdmissionRun) : Prop where
  law : AdmissionLaw s.store s.grants
  answers : AnswersGranted s.answers s.grants

theorem Inv.step (h : Inv s) (ha : s.DrawsFresh a) : (s.step ctx a).Inv := by
  cases a with
  | register nonceHash userId specVersion specHash expiresAt =>
    exact ⟨h.law.register nonceHash userId specVersion specHash expiresAt, h.answers⟩
  | find => exact h
  | admitJob r ids now =>
    have hstep := AnalysisJobStore.admitted ctx s.store r ids now
    simp only [AdmissionRun.step]
    generalize hout : s.store.admitParseBoundJob ctx r ids now = out at hstep ⊢
    cases hstep with
    | refused code => exact ⟨h.law, h.answers.error r _⟩
    | @replayed jobId job hkey hjob =>
      refine ⟨h.law, h.answers.replay h.law ?_⟩
      simp [AnalysisJobStore.findParseBoundJob, hkey, hjob]
    | spent hkey htoken hadmissions hfail =>
      simp only [ParseToken.admits, Bool.and_eq_true, Bool.not_eq_true'] at hadmissions
      exact ⟨h.law.spend htoken hadmissions.2, h.answers.error r _⟩
    | created hkey htoken hadmissions hjob =>
      exact ⟨h.law.grant hkey htoken hadmissions hjob ha.1 ha.2,
        h.answers.create (JobRequest.newJob_ok hjob).1⟩

theorem Inv.exec {s : AdmissionRun} {acts : List AdmissionAction} (h : s.Inv)
    (hrun : FreshRun ctx s acts) : (s.exec ctx acts).Inv := by
  induction hrun with
  | nil => exact h
  | cons ha _ ih => exact ih (h.step ha)

theorem Inv.start : AdmissionRun.start.Inv where
  law := .empty
  answers _ _ h := absurd h List.not_mem_nil

end AdmissionRun
end QuantAgent
