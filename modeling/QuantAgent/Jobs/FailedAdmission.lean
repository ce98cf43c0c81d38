import QuantAgent.Jobs.Finality

namespace QuantAgent
set_option autoImplicit true

/-- `create_job` refuses a request for its fields or for its execution spec. -/
def JobRequest.Refused (ctx : JobContext) (r : JobRequest) : Prop :=
  r.invalidFields ≠ [] ∨
    ∃ spec e, r.executionSpec = some spec ∧ ctx.validateExecutionSpec spec = .error e

theorem JobRequest.newJob_error (h : JobRequest.newJob ctx r jobId now = .error e) :
    r.Refused ctx := by
  by_cases hfields : r.invalidFields = []
  · right
    unfold newJob at h
    cases hs : r.executionSpec with
    | none =>
      rw [hs] at h
      simp only [if_pos hfields] at h
      cases h
    | some spec =>
      rw [hs] at h
      cases hv : ctx.validateExecutionSpec spec with
      | error e' => exact ⟨spec, e', rfl, hv⟩
      | ok spec' =>
        simp only [hv, if_pos hfields] at h
        cases h
  · exact .inl hfields

theorem JobRequest.Refused.newJob_eq (h : JobRequest.Refused ctx r) (jobId : JobId)
    (now : Timestamp) : ∃ e, r.newJob ctx jobId now = .error e := by
  cases hnew : r.newJob ctx jobId now with
  | error e => exact ⟨e, rfl⟩
  | ok job =>
    obtain ⟨-, -, -, -, -, hfields, hspec⟩ := newJob_ok hnew
    obtain h | ⟨spec, e, hs, he⟩ := h
    · exact absurd hfields h
    · obtain ⟨spec', hv⟩ := hspec spec hs
      rw [hv] at he
      cases he

namespace AnalysisJobStore

/-- An admission that looks its token up and finds one that lets the request in. -/
def Spends (s : AnalysisJobStore) (r : AdmissionRequest) (now : Timestamp) : Prop :=
  s.parseIdempotency.get? (r.userId, r.clientIdempotencyKey) = none ∧
    ∃ token, s.parseTokens.get? r.nonceHash = some token ∧ token.admits r now = true

/-- A call that raises leaves every table as it was. -/
def TracelessFailure (ctx : JobContext) (s : AnalysisJobStore) (r : AdmissionRequest)
    (ids : DrawnIds) (now : Timestamp) : Prop :=
  ∀ e, (s.admitParseBoundJob ctx r ids now).2 = .error e →
    (s.admitParseBoundJob ctx r ids now).1 = s

theorem spendToken_ne {s : AnalysisJobStore} (htoken : s.parseTokens.get? nonceHash = some token)
    (hconsumed : token.consumed = false) : s.spendToken nonceHash token ≠ s := by
  intro hsame
  have hspent : (s.spendToken nonceHash token).parseTokens.get? nonceHash =
      some { token with consumed := true } := by
    simp [spendToken]
  rw [hsame, htoken, Option.some.injEq] at hspent
  rw [hspent] at hconsumed
  cases hconsumed

/-- A refused request that reaches a token it may spend costs the token. -/
theorem admitParseBoundJob_refused {ctx : JobContext} {s : AnalysisJobStore} {r : AdmissionRequest}
    (hspends : s.Spends r now) (hrefused : r.jobRequest.Refused ctx) (ids : DrawnIds) :
    ∃ e, (s.admitParseBoundJob ctx r ids now).2 = .error e ∧
      (s.admitParseBoundJob ctx r ids now).1 ≠ s := by
  obtain ⟨hkey, token, htoken, hlet⟩ := hspends
  obtain ⟨e, he⟩ := hrefused.newJob_eq ids.jobId now
  have hout : s.admitParseBoundJob ctx r ids now = (s.spendToken r.nonceHash token, .error e) := by
    simp only [admitParseBoundJob, hkey, htoken, if_pos hlet, he, spendToken]
  have hconsumed : token.consumed = false := by
    simp only [ParseToken.admits, Bool.and_eq_true, Bool.not_eq_true'] at hlet
    exact hlet.2
  rw [hout]
  exact ⟨e, rfl, spendToken_ne htoken hconsumed⟩

/-- The token is lost to the retry as well. -/
theorem admitParseBoundJob_retry {ctx : JobContext} {s : AnalysisJobStore} {r : AdmissionRequest}
    (hspends : s.Spends r now) (hrefused : r.jobRequest.Refused ctx) (ids : DrawnIds)
    {retry : AdmissionRequest} (hnonce : retry.nonceHash = r.nonceHash)
    (hkey : s.parseIdempotency.get? (retry.userId, retry.clientIdempotencyKey) = none)
    (ids' : DrawnIds) (later : Timestamp) :
    ((s.admitParseBoundJob ctx r ids now).1.admitParseBoundJob ctx retry ids' later).2 =
      .error (.admission "parse_token_unavailable") := by
  obtain ⟨hfree, token, htoken, hlet⟩ := hspends
  obtain ⟨e, he⟩ := hrefused.newJob_eq ids.jobId now
  have hout : (s.admitParseBoundJob ctx r ids now).1 = s.spendToken r.nonceHash token := by
    simp only [admitParseBoundJob, hfree, htoken, if_pos hlet, he, spendToken]
  have hspent : (s.spendToken r.nonceHash token).parseTokens.get? retry.nonceHash =
      some { token with consumed := true } := by
    simp [spendToken, hnonce]
  have hshut : ({ token with consumed := true } : ParseToken).admits retry later = false := by
    simp [ParseToken.admits]
  have hkey' : (s.spendToken r.nonceHash token).parseIdempotency.get?
      (retry.userId, retry.clientIdempotencyKey) = none := hkey
  rw [hout]
  simp only [admitParseBoundJob, hkey', hspent, hshut]
  rfl

/-- A failed admission leaves no trace exactly when no token is spent on a request that `create_job`
then refuses. -/
theorem failed_admission_traceless_iff (ctx : JobContext) (s : AnalysisJobStore)
    (r : AdmissionRequest) (ids : DrawnIds) (now : Timestamp) :
    s.TracelessFailure ctx r ids now ↔ ¬(s.Spends r now ∧ r.jobRequest.Refused ctx) := by
  constructor
  · rintro htraceless ⟨hspends, hrefused⟩
    obtain ⟨e, he, hchanged⟩ := admitParseBoundJob_refused hspends hrefused ids
    exact hchanged (htraceless e he)
  · intro hnot e he
    have hstep := admitted ctx s r ids now
    generalize hout : s.admitParseBoundJob ctx r ids now = out at hstep he ⊢
    cases hstep with
    | refused code => rfl
    | replayed hkey hjob => cases he
    | spent hkey htoken hlet hfail =>
      exact absurd ⟨⟨hkey, _, htoken, hlet⟩, JobRequest.newJob_error hfail⟩ hnot
    | created hkey htoken hlet hjob => cases he

/-- A store that holds one token, of Alice's. -/
def aliceStore : AnalysisJobStore :=
  AnalysisJobStore.empty.registerParseToken "n1" "alice" "v1" (JobSystem.hashOf '1') 1000

def emptyRequest : AdmissionRequest := ⟨"", "n1", "alice", "v1", JobSystem.hashOf '1', none, "key"⟩

theorem empty_request_costs_token :
    ¬∀ ctx s r ids now, TracelessFailure ctx s r ids now := by
  intro h
  have hspends : aliceStore.Spends emptyRequest 1 :=
    ⟨rfl, ⟨"alice", "v1", JobSystem.hashOf '1', 1000, false⟩, rfl, by
      simp [ParseToken.admits, emptyRequest]⟩
  have hrefused : emptyRequest.jobRequest.Refused JobSystem.plainContext := by
    left
    simp [JobRequest.invalidFields, AdmissionRequest.jobRequest, emptyRequest]
  obtain ⟨e, he, hchanged⟩ := admitParseBoundJob_refused hspends hrefused
    ⟨"job_1", "outbox_1", "appendix_1"⟩
  exact hchanged (h _ _ _ _ _ e he)

end AnalysisJobStore
end QuantAgent
