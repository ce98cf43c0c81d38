import QuantAgent.Jobs.Admission

namespace QuantAgent
set_option autoImplicit true

/-- How far a transaction of `PostgresAnalysisJobRepository.admit_parse_bound_job` is: its lookup
missed, its token update matched a row or not, and which of its rows it has inserted. -/
inductive AdmissionStage
  | opened
  | missed
  | unspent
  | spent
  | insertedJob
  | insertedKey
  | insertedOutbox
deriving DecidableEq

/-- An open transaction; none of what it wrote is visible to others before it commits. -/
structure AdmissionTxn where
  request : AdmissionRequest
  ids : DrawnIds
  job : AnalysisJob
  stage : AdmissionStage
deriving DecidableEq

namespace AdmissionTxn

/-- The token row it has updated and keeps locked. -/
def heldNonce (t : AdmissionTxn) : Option String :=
  match t.stage with
  | .spent | .insertedJob | .insertedKey | .insertedOutbox => some t.request.nonceHash
  | _ => none

def heldJob (t : AdmissionTxn) : Option JobId :=
  match t.stage with
  | .insertedJob | .insertedKey | .insertedOutbox => some t.ids.jobId
  | _ => none

def heldKey (t : AdmissionTxn) : Option (String × String) :=
  match t.stage with
  | .insertedKey | .insertedOutbox => some (t.request.userId, t.request.clientIdempotencyKey)
  | _ => none

def heldOutbox (t : AdmissionTxn) : Option String :=
  match t.stage with
  | .insertedOutbox => some t.ids.outboxId
  | _ => none

end AdmissionTxn

/-- The committed tables with the open transactions. -/
structure AdmissionTables (κ : Type u) where
  store : AnalysisJobStore
  txns : Dict κ AdmissionTxn
  grants : List Grant
  answers : AdmissionAnswers

inductive TableAction (κ : Type u)
  | register (nonceHash userId specVersion specHash : String) (expiresAt : Timestamp)
  | find (userId specHash clientIdempotencyKey : String)
  | openTxn (c : κ) (request : AdmissionRequest) (ids : DrawnIds) (now : Timestamp)
  | selectKey (c : κ)
  | spendToken (c : κ) (now : Timestamp)
  | rereadKey (c : κ)
  | insertJob (c : κ)
  | insertKey (c : κ)
  | insertOutbox (c : κ)
  | commit (c : κ)
  | rollback (c : κ)

namespace AdmissionTables
variable {κ : Type u} [DecidableEq κ]

def start : AdmissionTables κ := ⟨.empty, .empty, [], []⟩

/-- Whether another open transaction holds the row: a statement that needs it waits. -/
def heldElsewhere [DecidableEq α] (s : AdmissionTables κ) (c : κ) (held : AdmissionTxn → Option α)
    (x : α) : Bool :=
  s.txns.entries.any fun e => e.1 ≠ c && held e.2 == some x

def advance (s : AdmissionTables κ) (c : κ) (t : AdmissionTxn) (stage : AdmissionStage) :
    AdmissionTables κ :=
  { s with txns := s.txns.insert c { t with stage } }

/-- The end of a transaction that has committed nothing. -/
def answer (s : AdmissionTables κ) (c : κ) (t : AdmissionTxn)
    (out : Except JobError ParseBoundJobAdmission) : AdmissionTables κ :=
  { s with txns := s.txns.erase c, answers := (t.request, out) :: s.answers }

def lookup (s : AdmissionTables κ) (t : AdmissionTxn) : Except JobError (Option AnalysisJob) :=
  s.store.findParseBoundJob t.request.userId t.request.specHash t.request.clientIdempotencyKey

def step (ctx : JobContext) (s : AdmissionTables κ) : TableAction κ → AdmissionTables κ
  | .register nonceHash userId specVersion specHash expiresAt =>
    { s with
      store := s.store.registerParseToken nonceHash userId specVersion specHash expiresAt }
  | .find _ _ _ => s
  | .openTxn c request ids now =>
    if c ∈ s.txns then s
    else
      match request.jobRequest.newJob ctx ids.jobId now with
      | .error e => { s with answers := (request, .error e) :: s.answers }
      | .ok job => { s with txns := s.txns.insert c ⟨request, ids, job, .opened⟩ }
  | .selectKey c =>
    match s.txns.get? c with
    | some t =>
      if t.stage = .opened then
        match s.lookup t with
        | .ok (some job) => s.answer c t (.ok ⟨job, false, none⟩)
        | .ok none => s.advance c t .missed
        | .error e => s.answer c t (.error e)
      else s
    | none => s
  | .spendToken c now =>
    match s.txns.get? c with
    | some t =>
      if t.stage = .missed ∧ s.heldElsewhere c AdmissionTxn.heldNonce t.request.nonceHash = false then
        match s.store.parseTokens.get? t.request.nonceHash with
        | some token =>
          if token.admits t.request now then s.advance c t .spent else s.advance c t .unspent
        | none => s.advance c t .unspent
      else s
    | none => s
  | .rereadKey c =>
    match s.txns.get? c with
    | some t =>
      if t.stage = .unspent then
        match s.lookup t with
        | .ok (some job) => s.answer c t (.ok ⟨job, false, none⟩)
        | .ok none => s.answer c t (.error (.admission "parse_token_unavailable"))
        | .error e => s.answer c t (.error e)
      else s
    | none => s
  | .insertJob c =>
    match s.txns.get? c with
    | some t =>
      if t.stage = .spent ∧ s.heldElsewhere c AdmissionTxn.heldJob t.ids.jobId = false then
        if t.ids.jobId ∈ s.store.jobs then
          s.answer c t (.error (.uniqueViolation "ai_analysis_job"))
        else s.advance c t .insertedJob
      else s
    | none => s
  | .insertKey c =>
    match s.txns.get? c with
    | some t =>
      if t.stage = .insertedJob ∧ s.heldElsewhere c AdmissionTxn.heldKey
          (t.request.userId, t.request.clientIdempotencyKey) = false then
        if (t.request.userId, t.request.clientIdempotencyKey) ∈ s.store.parseIdempotency then
          s.answer c t (.error (.uniqueViolation "ai_analysis_job_idempotency"))
        else s.advance c t .insertedKey
      else s
    | none => s
  | .insertOutbox c =>
    match s.txns.get? c with
    | some t =>
      if t.stage = .insertedKey ∧ s.heldElsewhere c AdmissionTxn.heldOutbox t.ids.outboxId = false then
        if t.ids.outboxId ∈ s.store.analysisJobOutbox ∨
            s.store.analysisJobOutbox.values.any (·.jobId == t.ids.jobId) then
          s.answer c t (.error (.uniqueViolation "ai_analysis_job_outbox"))
        else s.advance c t .insertedOutbox
      else s
    | none => s
  | .commit c =>
    match s.txns.get? c with
    | some t =>
      if t.stage = .insertedOutbox then
        match s.store.parseTokens.get? t.request.nonceHash with
        | some token =>
          { store := (s.store.spendToken t.request.nonceHash token).recordAdmission t.request t.ids t.job
            txns := s.txns.erase c
            grants := ⟨t.request, t.ids⟩ :: s.grants
            answers := (t.request, .ok ⟨t.job, true, some t.ids.outboxId⟩) :: s.answers }
        | none => s
      else s
    | none => s
  | .rollback c => { s with txns := s.txns.erase c }

def exec (ctx : JobContext) (s : AdmissionTables κ) (acts : List (TableAction κ)) :
    AdmissionTables κ :=
  acts.foldl (step ctx) s

/-- No two open transactions hold one row, and what a holder relies on is true of the tables. -/
def Exclusive (txns : Dict κ AdmissionTxn) (held : AdmissionTxn → Option α)
    (P : AdmissionTxn → Prop) : Prop :=
  ∀ c t x, txns.get? c = some t → held t = some x →
    P t ∧ ∀ c' t', txns.get? c' = some t' → held t' = some x → c' = c

theorem Exclusive.empty {held : AdmissionTxn → Option α} {P : AdmissionTxn → Prop} :
    Exclusive (.empty : Dict κ AdmissionTxn) held P := by
  intro c t x h
  cases h

theorem Exclusive.erase {txns : Dict κ AdmissionTxn} {held : AdmissionTxn → Option α}
    {P : AdmissionTxn → Prop} (h : Exclusive txns held P) (c : κ) :
    Exclusive (txns.erase c) held P := by
  intro c₁ t₁ x h₁ hx
  rw [Dict.get?_erase] at h₁
  split at h₁
  · cases h₁
  · obtain ⟨hP, honly⟩ := h c₁ t₁ x h₁ hx
    refine ⟨hP, ?_⟩
    intro c₂ t₂ h₂ hx₂
    rw [Dict.get?_erase] at h₂
    split at h₂
    · cases h₂
    · exact honly c₂ t₂ h₂ hx₂

theorem Exclusive.mono {txns : Dict κ AdmissionTxn} {held : AdmissionTxn → Option α}
    {P Q : AdmissionTxn → Prop} (h : Exclusive txns held P)
    (hPQ : ∀ c t x, txns.get? c = some t → held t = some x → P t → Q t) :
    Exclusive txns held Q := by
  intro c t x hc hx
  obtain ⟨hP, honly⟩ := h c t x hc hx
  exact ⟨hPQ c t x hc hx hP, honly⟩

theorem Exclusive.insert {txns : Dict κ AdmissionTxn} {held : AdmissionTxn → Option α}
    {P : AdmissionTxn → Prop} (h : Exclusive txns held P)
    (hnew : ∀ x, held t = some x → P t ∧
      ∀ c' t', c' ≠ c → txns.get? c' = some t' → held t' ≠ some x) :
    Exclusive (txns.insert c t) held P := by
  have hget : ∀ {c' t'}, (txns.insert c t).get? c' = some t' →
      (c' = c ∧ t' = t) ∨ (c' ≠ c ∧ txns.get? c' = some t') := by
    intro c' t' h'
    rw [Dict.get?_insert] at h'
    split at h'
    · rename_i heq
      exact .inl ⟨heq, (Option.some.inj h').symm⟩
    · rename_i hne
      exact .inr ⟨hne, h'⟩
  intro c₁ t₁ x h₁ hx₁
  rcases hget h₁ with ⟨rfl, rfl⟩ | ⟨hne₁, hold₁⟩
  · obtain ⟨hP, hother⟩ := hnew x hx₁
    refine ⟨hP, ?_⟩
    intro c₂ t₂ h₂ hx₂
    rcases hget h₂ with ⟨rfl, -⟩ | ⟨hne₂, h₂⟩
    · rfl
    · exact absurd hx₂ (hother c₂ t₂ hne₂ h₂)
  · obtain ⟨hP, honly⟩ := h c₁ t₁ x hold₁ hx₁
    refine ⟨hP, ?_⟩
    intro c₂ t₂ h₂ hx₂
    rcases hget h₂ with ⟨rfl, rfl⟩ | ⟨-, h₂⟩
    · exact absurd hx₁ ((hnew x hx₂).2 c₁ t₁ hne₁ hold₁)
    · exact honly c₂ t₂ h₂ hx₂

theorem heldElsewhere_false [DecidableEq α] {s : AdmissionTables κ}
    {held : AdmissionTxn → Option α} (h : s.heldElsewhere c held x = false) :
    ∀ c' t', c' ≠ c → s.txns.get? c' = some t' → held t' ≠ some x := by
  intro c' t' hne hc' hx
  rw [heldElsewhere, List.any_eq_false] at h
  have hmem := h (c', t') (Dict.entry_mem_of_get? hc')
  simp [hne, hx] at hmem

/-- A transaction that takes no row, or one that nobody else holds. -/
theorem Exclusive.advance [DecidableEq α] {s : AdmissionTables κ} {held : AdmissionTxn → Option α}
    {P : AdmissionTxn → Prop} (h : Exclusive s.txns held P) (ht : s.txns.get? c = some t)
    (hP : P t → P t') (hx : ∀ x, held t' = some x →
      held t = some x ∨ P t' ∧ s.heldElsewhere c held x = false) :
    Exclusive (s.txns.insert c t') held P := by
  apply h.insert
  intro x hx'
  rcases hx x hx' with hold | ⟨hP', hfree⟩
  · obtain ⟨hPt, honly⟩ := h c t x ht hold
    exact ⟨hP hPt, fun c' t' hne hc' hx' => hne (honly c' t' hc' hx')⟩
  · exact ⟨hP', heldElsewhere_false hfree⟩

/-- The committed rows obey the admission law, and open transactions hold distinct rows: an
unspent token that admits them, and ids and keys the tables do not have yet. -/
structure Inv (ctx : JobContext) (s : AdmissionTables κ) : Prop where
  law : AdmissionLaw s.store s.grants
  answers : AnswersGranted s.answers s.grants
  job_built : ∀ c t, s.txns.get? c = some t →
    ∃ now, t.request.jobRequest.newJob ctx t.ids.jobId now = .ok t.job
  nonces : Exclusive s.txns AdmissionTxn.heldNonce fun t =>
    ∃ token now, s.store.parseTokens.get? t.request.nonceHash = some token ∧
      token.admits t.request now = true
  jobs : Exclusive s.txns AdmissionTxn.heldJob fun t => s.store.getJob t.ids.jobId = none
  keys : Exclusive s.txns AdmissionTxn.heldKey fun t =>
    s.store.parseIdempotency.get? (t.request.userId, t.request.clientIdempotencyKey) = none
  outboxes : Exclusive s.txns AdmissionTxn.heldOutbox fun t =>
    s.store.analysisJobOutbox.get? t.ids.outboxId = none

theorem Inv.start {ctx : JobContext} : Inv ctx (start : AdmissionTables κ) where
  law := .empty
  answers _ _ h := absurd h List.not_mem_nil
  job_built _ _ h := by cases h
  nonces := .empty
  jobs := .empty
  keys := .empty
  outboxes := .empty

theorem Inv.answer {s : AdmissionTables κ} (h : Inv ctx s)
    (ha : AnswersGranted ((t.request, out) :: s.answers) s.grants) :
    Inv ctx (s.answer c t out) where
  law := h.law
  answers := ha
  job_built c' t' h' := by
    have h' : (s.txns.erase c).get? c' = some t' := h'
    rw [Dict.get?_erase] at h'
    split at h'
    · cases h'
    · exact h.job_built c' t' h'
  nonces := h.nonces.erase c
  jobs := h.jobs.erase c
  keys := h.keys.erase c
  outboxes := h.outboxes.erase c

theorem Inv.refuse {s : AdmissionTables κ} (h : Inv ctx s) : Inv ctx (s.answer c t (.error e)) :=
  h.answer (h.answers.error t.request e)

theorem Inv.answer_lookup {s : AdmissionTables κ} (h : Inv ctx s)
    (hfind : s.lookup t = .ok (some job)) : Inv ctx (s.answer c t (.ok ⟨job, false, none⟩)) :=
  h.answer (h.answers.replay h.law hfind)

/-- A stage reached by one of its own statements. -/
theorem Inv.advance {s : AdmissionTables κ} (h : Inv ctx s) (ht : s.txns.get? c = some t)
    (hnonce : ∀ x, ({ t with stage } : AdmissionTxn).heldNonce = some x → t.heldNonce = some x ∨
      (∃ token now, s.store.parseTokens.get? t.request.nonceHash = some token ∧
        token.admits t.request now = true) ∧ s.heldElsewhere c AdmissionTxn.heldNonce x = false)
    (hjob : ∀ x, ({ t with stage } : AdmissionTxn).heldJob = some x → t.heldJob = some x ∨
      s.store.getJob t.ids.jobId = none ∧ s.heldElsewhere c AdmissionTxn.heldJob x = false)
    (hkey : ∀ x, ({ t with stage } : AdmissionTxn).heldKey = some x → t.heldKey = some x ∨
      s.store.parseIdempotency.get? (t.request.userId, t.request.clientIdempotencyKey) = none ∧
        s.heldElsewhere c AdmissionTxn.heldKey x = false)
    (houtbox : ∀ x, ({ t with stage } : AdmissionTxn).heldOutbox = some x → t.heldOutbox = some x ∨
      s.store.analysisJobOutbox.get? t.ids.outboxId = none ∧
        s.heldElsewhere c AdmissionTxn.heldOutbox x = false) :
    Inv ctx (s.advance c t stage) where
  law := h.law
  answers := h.answers
  job_built c' t' h' := by
    have h' : (s.txns.insert c { t with stage }).get? c' = some t' := h'
    rw [Dict.get?_insert] at h'
    split at h'
    · cases h'
      exact h.job_built c t ht
    · exact h.job_built c' t' h'
  nonces := h.nonces.advance ht id hnonce
  jobs := h.jobs.advance ht id hjob
  keys := h.keys.advance ht id hkey
  outboxes := h.outboxes.advance ht id houtbox

theorem Inv.register {s : AdmissionTables κ} (h : Inv ctx s)
    (nonceHash userId specVersion specHash : String) (expiresAt : Timestamp) :
    Inv ctx { s with
      store := s.store.registerParseToken nonceHash userId specVersion specHash expiresAt } := by
  have hlaw := h.law.register nonceHash userId specVersion specHash expiresAt
  unfold AnalysisJobStore.registerParseToken at hlaw ⊢
  split
  · exact h
  · rename_i hnew
    rw [if_neg hnew] at hlaw
    refine ⟨hlaw, h.answers, h.job_built, ?_, h.jobs, h.keys, h.outboxes⟩
    apply h.nonces.mono
    rintro c t x - - ⟨token, now, htoken, hadmits⟩
    have hne : t.request.nonceHash ≠ nonceHash := by
      rintro rfl
      exact hnew (Dict.mem_of_get? htoken)
    exact ⟨token, now, by rw [Dict.get?_insert, if_neg hne, htoken], hadmits⟩

theorem Inv.rollback {s : AdmissionTables κ} (h : Inv ctx s) (c : κ) :
    Inv ctx { s with txns := s.txns.erase c } where
  law := h.law
  answers := h.answers
  job_built c' t' h' := by
    have h' : (s.txns.erase c).get? c' = some t' := h'
    rw [Dict.get?_erase] at h'
    split at h'
    · cases h'
    · exact h.job_built c' t' h'
  nonces := h.nonces.erase c
  jobs := h.jobs.erase c
  keys := h.keys.erase c
  outboxes := h.outboxes.erase c

theorem Inv.openTxn {s : AdmissionTables κ} (h : Inv ctx s)
    (hjob : r.jobRequest.newJob ctx ids.jobId now = .ok job) :
    Inv ctx { s with txns := s.txns.insert c ⟨r, ids, job, .opened⟩ } where
  law := h.law
  answers := h.answers
  job_built c' t' h' := by
    have h' : (s.txns.insert c ⟨r, ids, job, .opened⟩).get? c' = some t' := h'
    rw [Dict.get?_insert] at h'
    split at h'
    · cases h'
      exact ⟨now, hjob⟩
    · exact h.job_built c' t' h'
  nonces := h.nonces.insert nofun
  jobs := h.jobs.insert nofun
  keys := h.keys.insert nofun
  outboxes := h.outboxes.insert nofun

theorem Inv.commit {s : AdmissionTables κ} (h : Inv ctx s) (ht : s.txns.get? c = some t)
    (hstage : t.stage = .insertedOutbox)
    (htoken : s.store.parseTokens.get? t.request.nonceHash = some token) :
    Inv ctx {
      store := (s.store.spendToken t.request.nonceHash token).recordAdmission t.request t.ids t.job
      txns := s.txns.erase c
      grants := ⟨t.request, t.ids⟩ :: s.grants
      answers := (t.request, .ok ⟨t.job, true, some t.ids.outboxId⟩) :: s.answers } := by
  have hnonce : t.heldNonce = some t.request.nonceHash := by simp [AdmissionTxn.heldNonce, hstage]
  have hjob : t.heldJob = some t.ids.jobId := by simp [AdmissionTxn.heldJob, hstage]
  have hkey : t.heldKey = some (t.request.userId, t.request.clientIdempotencyKey) := by
    simp [AdmissionTxn.heldKey, hstage]
  have houtbox : t.heldOutbox = some t.ids.outboxId := by simp [AdmissionTxn.heldOutbox, hstage]
  obtain ⟨⟨token', now, htoken', hadmits⟩, honlyNonce⟩ := h.nonces c t _ ht hnonce
  obtain ⟨hnoJob, honlyJob⟩ := h.jobs c t _ ht hjob
  obtain ⟨hnoKey, honlyKey⟩ := h.keys c t _ ht hkey
  obtain ⟨hnoOutbox, honlyOutbox⟩ := h.outboxes c t _ ht houtbox
  obtain ⟨built, hbuilt⟩ := h.job_built c t ht
  rw [htoken, Option.some.injEq] at htoken'
  subst htoken'
  have hrolled := h.rollback c
  have hother : ∀ {c' t'}, (s.txns.erase c).get? c' = some t' →
      c' ≠ c ∧ s.txns.get? c' = some t' := by
    intro c' t' h'
    rw [Dict.get?_erase] at h'
    split at h'
    · cases h'
    · rename_i hne
      exact ⟨hne, h'⟩
  constructor
  · exact h.law.grant hnoKey htoken hadmits hbuilt hnoJob hnoOutbox
  · exact h.answers.create (JobRequest.newJob_ok hbuilt).1
  · exact hrolled.job_built
  · apply hrolled.nonces.mono
    rintro c' t' x hc' hx ⟨token', now', htoken', hadmits'⟩
    obtain ⟨hne, hc'⟩ := hother hc'
    have hx' : t'.heldNonce = some t'.request.nonceHash := by
      unfold AdmissionTxn.heldNonce at hx ⊢
      split at hx
      all_goals first | rfl | cases hx
    have hn : t'.request.nonceHash ≠ t.request.nonceHash := fun heq =>
      hne (honlyNonce c' t' hc' (heq ▸ hx'))
    refine ⟨token', now', ?_, hadmits'⟩
    rw [AnalysisJobStore.recordAdmission_parseTokens, AnalysisJobStore.spendToken,
      Dict.get?_insert, if_neg hn]
    exact htoken'
  · apply hrolled.jobs.mono
    intro c' t' x hc' hx hfree
    obtain ⟨hne, hc'⟩ := hother hc'
    have hx' : t'.heldJob = some t'.ids.jobId := by
      unfold AdmissionTxn.heldJob at hx ⊢
      split at hx
      all_goals first | rfl | cases hx
    have hn : t'.ids.jobId ≠ t.ids.jobId := fun heq => hne (honlyJob c' t' hc' (heq ▸ hx'))
    rw [AnalysisJobStore.getJob, AnalysisJobStore.recordAdmission_jobs, Dict.get?_insert, if_neg hn]
    exact hfree
  · apply hrolled.keys.mono
    intro c' t' x hc' hx hfree
    obtain ⟨hne, hc'⟩ := hother hc'
    have hx' : t'.heldKey = some (t'.request.userId, t'.request.clientIdempotencyKey) := by
      unfold AdmissionTxn.heldKey at hx ⊢
      split at hx
      all_goals first | rfl | cases hx
    have hn : (t'.request.userId, t'.request.clientIdempotencyKey) ≠
        (t.request.userId, t.request.clientIdempotencyKey) := fun heq =>
      hne (honlyKey c' t' hc' (heq ▸ hx'))
    rw [AnalysisJobStore.recordAdmission_parseIdempotency, Dict.get?_insert, if_neg hn]
    exact hfree
  · apply hrolled.outboxes.mono
    intro c' t' x hc' hx hfree
    obtain ⟨hne, hc'⟩ := hother hc'
    have hx' : t'.heldOutbox = some t'.ids.outboxId := by
      unfold AdmissionTxn.heldOutbox at hx ⊢
      split at hx
      all_goals first | rfl | cases hx
    have hn : t'.ids.outboxId ≠ t.ids.outboxId := fun heq =>
      hne (honlyOutbox c' t' hc' (heq ▸ hx'))
    rw [AnalysisJobStore.recordAdmission_outbox, Dict.get?_insert, if_neg hn]
    exact hfree

theorem Inv.step {s : AdmissionTables κ} (h : Inv ctx s) (a : TableAction κ) :
    Inv ctx (s.step ctx a) := by
  cases a with
  | register nonceHash userId specVersion specHash expiresAt =>
    exact h.register nonceHash userId specVersion specHash expiresAt
  | find => exact h
  | openTxn c request ids now =>
    simp only [AdmissionTables.step]
    split
    · exact h
    · split
      · exact ⟨h.law, h.answers.error request _, h.job_built, h.nonces, h.jobs, h.keys, h.outboxes⟩
      · rename_i job hjob
        exact h.openTxn hjob
  | selectKey c =>
    simp only [AdmissionTables.step]
    split
    · rename_i t ht
      split
      · split
        · rename_i job hfind
          exact h.answer_lookup hfind
        · exact h.advance ht (forall_of_eq_none rfl) (forall_of_eq_none rfl) (forall_of_eq_none rfl) (forall_of_eq_none rfl)
        · exact h.refuse
      · exact h
    · exact h
  | spendToken c now =>
    simp only [AdmissionTables.step]
    split
    · rename_i t ht
      split
      · rename_i hmissed
        split
        · rename_i token htoken
          split
          · rename_i hadmits
            refine h.advance ht ?_ (forall_of_eq_none rfl) (forall_of_eq_none rfl) (forall_of_eq_none rfl)
            intro x hx
            obtain rfl := Option.some.inj hx
            exact .inr ⟨⟨token, now, htoken, hadmits⟩, hmissed.2⟩
          · exact h.advance ht (forall_of_eq_none rfl) (forall_of_eq_none rfl) (forall_of_eq_none rfl) (forall_of_eq_none rfl)
        · exact h.advance ht (forall_of_eq_none rfl) (forall_of_eq_none rfl) (forall_of_eq_none rfl) (forall_of_eq_none rfl)
      · exact h
    · exact h
  | rereadKey c =>
    simp only [AdmissionTables.step]
    split
    · rename_i t ht
      split
      · split
        · rename_i job hfind
          exact h.answer_lookup hfind
        · exact h.refuse
        · exact h.refuse
      · exact h
    · exact h
  | insertJob c =>
    simp only [AdmissionTables.step]
    split
    · rename_i t ht
      split
      · rename_i hspent
        split
        · exact h.refuse
        · rename_i hnew
          refine h.advance ht ?_ ?_ (forall_of_eq_none rfl) (forall_of_eq_none rfl)
          · intro x hx
            exact .inl (by simpa [AdmissionTxn.heldNonce, hspent.1] using hx)
          · intro x hx
            obtain rfl := Option.some.inj hx
            exact .inr ⟨Dict.get?_eq_none_iff.mpr hnew, hspent.2⟩
      · exact h
    · exact h
  | insertKey c =>
    simp only [AdmissionTables.step]
    split
    · rename_i t ht
      split
      · rename_i hinserted
        split
        · exact h.refuse
        · rename_i hnew
          refine h.advance ht ?_ ?_ ?_ (forall_of_eq_none rfl)
          · intro x hx
            exact .inl (by simpa [AdmissionTxn.heldNonce, hinserted.1] using hx)
          · intro x hx
            exact .inl (by simpa [AdmissionTxn.heldJob, hinserted.1] using hx)
          · intro x hx
            obtain rfl := Option.some.inj hx
            exact .inr ⟨Dict.get?_eq_none_iff.mpr hnew, hinserted.2⟩
      · exact h
    · exact h
  | insertOutbox c =>
    simp only [AdmissionTables.step]
    split
    · rename_i t ht
      split
      · rename_i hinserted
        split
        · exact h.refuse
        · rename_i hnew
          refine h.advance ht ?_ ?_ ?_ ?_
          · intro x hx
            exact .inl (by simpa [AdmissionTxn.heldNonce, hinserted.1] using hx)
          · intro x hx
            exact .inl (by simpa [AdmissionTxn.heldJob, hinserted.1] using hx)
          · intro x hx
            exact .inl (by simpa [AdmissionTxn.heldKey, hinserted.1] using hx)
          · intro x hx
            obtain rfl := Option.some.inj hx
            exact .inr ⟨Dict.get?_eq_none_iff.mpr (not_or.mp hnew).1, hinserted.2⟩
      · exact h
    · exact h
  | commit c =>
    simp only [AdmissionTables.step]
    split
    · rename_i t ht
      split
      · rename_i hstage
        split
        · rename_i token htoken
          exact h.commit ht hstage htoken
        · exact h
      · exact h
    · exact h
  | rollback c => exact h.rollback c

theorem Inv.exec {s : AdmissionTables κ} (h : Inv ctx s) (acts : List (TableAction κ)) :
    Inv ctx (s.exec ctx acts) := by
  induction acts generalizing s with
  | nil => exact h
  | cons a acts ih => exact ih (h.step a)

theorem replays_selectKey {s : AdmissionTables κ} (h : AdmissionLaw s.store s.grants) (hg : g ∈ s.grants)
    (ht : s.txns.get? c = some t) (hstage : t.stage = .opened) (hkey : t.request.SameKey g) :
    ∃ out, (s.step ctx (.selectKey c)).answers = (t.request, out) :: s.answers ∧
      g.Replays t.request out := by
  obtain ⟨hu, hk⟩ := hkey
  simp only [step, ht, if_pos hstage, lookup, hu, hk]
  rcases h.find_eq hg t.request.specHash with ⟨hh, job, hid, hfind⟩ | ⟨hh, hfind⟩
  · rw [hfind]
    exact ⟨_, rfl, .inl ⟨hh, job, hid, rfl⟩⟩
  · rw [hfind]
    exact ⟨_, rfl, .inr ⟨hh, rfl⟩⟩

end AdmissionTables

/-- Admission in both stores: over any calls of the in-memory store whose ids are fresh, and over
any interleaving of the database's transactions. -/
theorem admission_unique {κ : Type u} [DecidableEq κ] (ctx : JobContext) :
    (∀ acts, AdmissionRun.FreshRun ctx .start acts →
      let s := AdmissionRun.start.exec ctx acts
      AdmissionGuarantee s.store s.grants s.answers ∧
        ∀ g ∈ s.grants, ∀ r ids now, r.SameKey g →
          g.Replays r (s.store.admitParseBoundJob ctx r ids now).2) ∧
    ∀ acts : List (TableAction κ),
      let s := AdmissionTables.start.exec ctx acts
      AdmissionGuarantee s.store s.grants s.answers ∧
        ∀ g ∈ s.grants, ∀ c t, s.txns.get? c = some t → t.stage = .opened → t.request.SameKey g →
          ∃ out, (s.step ctx (.selectKey c)).answers = (t.request, out) :: s.answers ∧
            g.Replays t.request out := by
  constructor
  · intro acts hrun
    have h := AdmissionRun.Inv.start.exec hrun
    exact ⟨h.law.guarantee h.answers, fun g hg r ids now hkey => h.law.replays_admitted hg hkey⟩
  · intro acts
    have h : AdmissionTables.Inv ctx ((AdmissionTables.start : AdmissionTables κ).exec ctx acts) :=
      AdmissionTables.Inv.start.exec acts
    exact ⟨h.law.guarantee h.answers, fun g hg c t ht hstage hkey =>
      AdmissionTables.replays_selectKey h.law hg ht hstage hkey⟩

section Runs
open JobSystem

def aliceRequest : AdmissionRequest := ⟨"query", "n1", "alice", "v1", hashOf '1', none, "key"⟩

def aliceIds : DrawnIds := ⟨"job_1", "outbox_1", "appendix_1"⟩

/-- Alice admits a job; Bob holds a token of his own. -/
def aliceRun : List AdmissionAction :=
  [.register "n1" "alice" "v1" (hashOf '1') 1000, .register "n2" "bob" "v1" (hashOf '2') 1000,
    .admitJob aliceRequest aliceIds 1]

theorem aliceRun_guarantee :
    let s := AdmissionRun.start.exec plainContext aliceRun
    AdmissionGuarantee s.store s.grants s.answers :=
  ((admission_unique (κ := ℕ) plainContext).1 aliceRun
    (.cons trivial (.cons trivial (.cons ⟨rfl, rfl⟩ .nil)))).1

/-- No token lets a job out to another user than its own. -/
def NonceBound : Prop :=
  ∀ acts r ids now token, (AdmissionRun.start.exec plainContext acts).store.parseTokens.get?
      r.nonceHash = some token → token.userId ≠ r.userId →
    ∀ adm, ((AdmissionRun.start.exec plainContext acts).store.admitParseBoundJob plainContext r ids
      now).2 ≠ .ok adm

/-- Alice presents Bob's nonce with her own key and gets her job again. -/
theorem foreign_nonce_replayed : ¬NonceBound := by
  intro hbound
  have hout : ((AdmissionRun.start.exec plainContext aliceRun).store.admitParseBoundJob plainContext
      { aliceRequest with nonceHash := "n2" } aliceIds 2).2.isOk = true := by decide +kernel
  obtain ⟨adm, hadm⟩ := exists_ok hout
  exact hbound aliceRun { aliceRequest with nonceHash := "n2" } aliceIds 2
    ⟨"bob", "v1", hashOf '2', 1000, false⟩ (by decide +kernel) (by decide) adm hadm

end Runs
end QuantAgent
