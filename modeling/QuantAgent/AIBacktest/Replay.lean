import QuantAgent.AIBacktest.SingleExecution

namespace QuantAgent.AIBacktest
set_option autoImplicit true

/-- The states that `AIBacktestRunningResponse` admits. -/
def runningStates : List RequestState :=
  [.claimed, .generationInProgress, .executionArmed, .executionOutcomeUnknown, .executionReleased]

structure AIBacktestRunningResponse where
  requestId : String
  traceId : Option String
  state : RequestState
  running : state ∈ runningStates

/-- What the service raises: its own error, or one of the model validation. -/
inductive Raised where
  | appError (error : AppError)
  | validationError (model : String)
deriving DecidableEq

inductive Answer where
  | result (response : AICodeBacktestFlowResult)
  | running (response : AIBacktestRunningResponse)
  | error (response : AIBacktestErrorResponse)

namespace TerminalResponse

/-- The keys of the dump. -/
def fields : TerminalResponse → List String
  | error _ => ["code", "message", "trace_id", "details"]
  | result _ =>
    ["trace_id", "parse_id", "code_id", "validation_id", "execution_run_id", "run_id", "report_id",
      "code_status", "execution_status"]

/-- `AIBacktestErrorResponse.model_validate` -/
def validateError : TerminalResponse → Except Raised AIBacktestErrorResponse
  | error response => .ok response
  | result _ => .error (.validationError "AIBacktestErrorResponse")

/-- `AICodeBacktestFlowResult.model_validate` -/
def validateResult : TerminalResponse → Except Raised AICodeBacktestFlowResult
  | error _ => .error (.validationError "AICodeBacktestFlowResult")
  | result response => .ok response

def answer : TerminalResponse → Answer
  | error response => .error response
  | result response => .result response

end TerminalResponse

def executionOutcomeUnknown (claim : RequestClaim) : AppError :=
  ⟨409, "ai_backtest", "execution_outcome_unknown", "Prior execution outcome is unresolved",
    [("request_id", some claim.requestId), ("trace_id", claim.traceId),
      ("state", some claim.state.text)]⟩

def replayOrConflict (claim : RequestClaim) : Except Raised Answer :=
  match claim.terminalResponse with
  | some response =>
    if "code" ∈ response.fields then .error <$> response.validateError
    else .result <$> response.validateResult
  | none =>
    if claim.state = .executionOutcomeUnknown ∨ claim.safetyLease = .blockedUnknown then
      .error (.appError (executionOutcomeUnknown claim))
    else if h : claim.state ∈ runningStates then
      .ok (.running ⟨claim.requestId, claim.traceId, claim.state, h⟩)
    else .error (.validationError "AIBacktestRunningResponse")

/-- `re.fullmatch(r"^[A-Za-z0-9._~-]{8,128}$", key)` -/
def isIdempotencyKey (key : String) : Bool :=
  8 ≤ key.length && key.length ≤ 128 &&
    key.toList.all fun c => c.isAlphanum || c == '.' || c == '_' || c == '~' || c == '-'

/-- `_validate_execution_request`, with `build_request_fingerprint` as a parameter. -/
def validateExecutionRequest (buildRequestFingerprint : ι → String × String) (request : FlowRequest ι) :
    Except AppError Unit :=
  if ∀ context, request.executionContext = some context → request.userId ≠ some context.userId then
    .error executionContextRequired
  else if !request.idempotencyKey.any isIdempotencyKey then
    .error ⟨400, "ai_backtest", "idempotency_key_invalid", "A valid Idempotency-Key is required", []⟩
  else if request.fingerprintVersion ≠ some (buildRequestFingerprint request.intent).1 ∨
      request.requestFingerprint ≠ some (buildRequestFingerprint request.intent).2 then
    .error ⟨422, "ai_backtest", "request_validation_failed", "Request fingerprint is invalid", []⟩
  else .ok ()

def serviceUnavailable : AppError :=
  ⟨503, "ai_backtest", "service_unavailable", "Backtest service is temporarily unavailable", []⟩

/-- The claim of a request, on a database that may fail with `database`. -/
def Tables.tryClaim (env : RepositoryEnv) (t : Tables) (database : Option String)
    (request : FlowRequest ι) (draw : ClaimDraw) : Except AppError RequestClaim :=
  match database with
  | some error => .error (dbQueryFailed error)
  | none => (t.claimIdempotentRequest env request draw).1

/-- How `run_generated_backtest` gets on: it ends, or owns a fresh claim and executes it. -/
inductive Flow where
  | raises (error : Raised)
  | answers (answer : Answer)
  | owns (claim : RequestClaim)

/-- `run_generated_backtest` up to the execution of a fresh claim. -/
def runGeneratedBacktest (env : RepositoryEnv) (buildRequestFingerprint : ι → String × String)
    (t : Tables) (database : Option String) (request : FlowRequest ι) (draw : ClaimDraw) : Flow :=
  match validateExecutionRequest buildRequestFingerprint request with
  | .error error => .raises (.appError error)
  | .ok () =>
    match t.tryClaim env database request draw with
    -- Every exception of the claim, the refusals of the repository among them.
    | .error _ => .raises (.appError serviceUnavailable)
    | .ok claim =>
      if claim.traceId = some draw.traceId then .owns claim
      else
        match replayOrConflict claim with
        | .error error => .raises error
        | .ok answer => .answers answer

/-- The codes that name why a claim is refused. -/
def refusalCodes : List String :=
  ["idempotency_key_reused", "terminal_evidence_required", "replacement_approval_invalid"]

/-- What a request that gets no fresh claim is to be answered. -/
def Truthful (database : Option String) (claim : Except AppError RequestClaim) (flow : Flow) : Prop :=
  match database, claim with
  | some _, _ => flow = .raises (.appError serviceUnavailable)
  | none, .error refusal =>
    ∃ error, flow = .raises (.appError error) ∧ error.statusCode = 409 ∧ error.code = refusal.code ∧
      error.code ∈ refusalCodes
  | none, .ok claim =>
    match claim.terminalResponse with
    | some response => flow = .answers response.answer
    | none =>
      if claim.safetyLease = .blockedUnknown then
        ∃ error, flow = .raises (.appError error) ∧ error.statusCode = 409 ∧
          error.code = "execution_outcome_unknown"
      else if claim.state.terminal then
        ∃ error, flow = .raises (.appError error) ∧ error.statusCode = 409 ∧ error.code ∈ refusalCodes
      else ∃ h, flow = .answers (.running ⟨claim.requestId, claim.traceId, claim.state, h⟩)

/-- A request whose claim meets another of its intent: one under its key that is open or has a stored
response, or else an open one under another key. -/
def Tables.Replayable (t : Tables) (request : BoundRequest) : Prop :=
  match t.keyRow request with
  | some row => row.intentKey = request.intentKey ∧ (row.terminalResponse.isSome ∨ ¬ row.state.terminal)
  | none => ∃ prior, t.priorRow request.intentKey = some prior ∧ prior.safetyLease.live

theorem replayOrConflict_stored {claim : RequestClaim} (h : claim.terminalResponse = some response) :
    replayOrConflict claim = .ok response.answer := by
  rw [replayOrConflict, h]
  cases response with
  | error response => rfl
  | result response => rfl

theorem bound_of_valid {request : FlowRequest ι} (h : validateExecutionRequest build request = .ok ()) :
    ∃ bound, request.bound? = some bound := by
  unfold validateExecutionRequest at h
  split at h
  · cases h
  · rename_i hcontext
    push Not at hcontext
    obtain ⟨context, hcontext, -⟩ := hcontext
    split at h
    · cases h
    · rename_i hkey
      split at h
      · cases h
      · rename_i hfingerprint
        push Not at hfingerprint
        simp only [Bool.not_eq_true', Bool.not_eq_false, Option.any_eq_true] at hkey
        obtain ⟨key, hkey, -⟩ := hkey
        simp [FlowRequest.bound?, hcontext, hkey, hfingerprint.1, hfingerprint.2]

/-- Without a stored response, the answer to an open request is truthful, and to a closed one not. -/
theorem replay_open {claim : RequestClaim} (hlease : claim.safetyLease = claim.state.lease)
    (hnone : claim.terminalResponse = none) :
    Truthful none (.ok claim)
        (match replayOrConflict claim with | .error error => .raises error | .ok answer => .answers answer) ↔
      ¬ claim.state.terminal := by
  unfold Truthful replayOrConflict
  simp only [hnone, hlease]
  cases claim.state <;> simp [RequestState.lease, RequestState.terminal, runningStates, executionOutcomeUnknown]

theorem not_truthful_unavailable (refusal : AppError) :
    ¬ Truthful none (.error refusal) (.raises (.appError serviceUnavailable)) := by
  rintro ⟨error, herror, hstatus, -⟩
  obtain rfl := Raised.appError.inj (Flow.raises.inj herror)
  cases hstatus

/-- A repository's claim as the service goes on from it. -/
def answered (draw : ClaimDraw) : Except AppError RequestClaim → Flow
  | .error _ => .raises (.appError serviceUnavailable)
  | .ok claim =>
    if claim.traceId = some draw.traceId then .owns claim
    else match replayOrConflict claim with
      | .error error => .raises error
      | .ok answer => .answers answer

theorem answered_matched {row : Request} (hrow : row.Consistent)
    (howns : ∀ claim, answered draw (.ok (claimFromRow row)) ≠ .owns claim) :
    Truthful none (.ok (claimFromRow row)) (answered draw (.ok (claimFromRow row))) ↔
      row.terminalResponse.isSome ∨ ¬ row.state.terminal := by
  have htrace : (claimFromRow row).traceId ≠ some draw.traceId := fun htrace => howns _ (if_pos htrace)
  rw [answered, if_neg htrace]
  cases hstored : row.terminalResponse with
  | none =>
    have hlease : (claimFromRow row).safetyLease = (claimFromRow row).state.lease := hrow.lease
    rw [replay_open hlease hstored]
    simp [claimFromRow]
  | some response =>
    have hstored' : (claimFromRow row).terminalResponse = some response := hstored
    rw [replayOrConflict_stored hstored']
    simp [Truthful, hstored']

namespace Tables

/-- The order of `prior`: open requests first, then the newest. -/
theorem newerFirst_eq (a b : Request) : newerFirst a b = decide
    (toLex (if a.safetyLease.live then (0 : ℤ) else 1, -a.createdAt) <
      toLex (if b.safetyLease.live then (0 : ℤ) else 1, -b.createdAt)) := by
  rw [newerFirst, Bool.eq_iff_iff, decide_eq_true_iff, Prod.Lex.toLex_lt_toLex]
  cases a.safetyLease.live <;> cases b.safetyLease.live <;> simp

theorem priorRow_not_live {t : Tables} (h : t.priorRow key = some prior)
    (hprior : prior.safetyLease.live = false) :
    t.requests.values.find? (fun row => row.intentKey == key && row.safetyLease.live) = none := by
  rw [List.find?_eq_none]
  intro row hrow hlive
  simp only [Bool.and_eq_true] at hlive
  have hpairs := pySorted_pairwise newerFirst_eq (t.requests.values.filter fun row => row.intentKey == key)
  have hmem : row ∈ pySorted newerFirst (t.requests.values.filter fun row => row.intentKey == key) :=
    (mem_pySorted newerFirst).mpr (List.mem_filter.mpr ⟨hrow, hlive.1⟩)
  unfold priorRow at h
  cases hsorted : pySorted newerFirst (t.requests.values.filter fun row => row.intentKey == key) with
  | nil =>
    rw [hsorted] at h
    cases h
  | cons first rest =>
    rw [hsorted] at h hpairs hmem
    obtain rfl := Option.some.inj h
    rcases List.mem_cons.mp hmem with rfl | hmem
    · rw [hprior] at hlive
      cases hlive.2
    · have hle := (List.pairwise_cons.mp hpairs).1 row hmem
      rw [hprior, hlive.2, Prod.Lex.toLex_le_toLex] at hle
      simp at hle

theorem Inv.consistent_of_mem {t : Tables} (h : t.Inv) (hrow : row ∈ t.requests.values) : row.Consistent := by
  obtain ⟨⟨id, _⟩, hentry, rfl⟩ := List.mem_map.mp hrow
  exact h.consistent id _ (Dict.get?_of_entry_mem hentry)

theorem priorRow_mem {t : Tables} (h : t.priorRow key = some prior) : prior ∈ t.requests.values :=
  (List.mem_filter.mp ((mem_pySorted newerFirst).mp (List.mem_of_mem_head? h))).1

/-- A claim that goes on to insert meets no request: it is fresh, or its id was drawn before. -/
theorem insertOrFind_cases {t : Tables} {bound : BoundRequest} (hkey : t.keyRow bound = none)
    (hlive : t.requests.values.find?
      (fun row => row.intentKey == bound.intentKey && row.safetyLease.live) = none) :
    t.insertOrFind bound draw = .error idempotencyClaimInconsistent ∨
      ∃ t', t.insertOrFind bound draw = .ok (claimFromRow (claimedRow bound draw), t') := by
  unfold insertOrFind
  split
  · rw [hkey, hlive]
    exact .inl rfl
  · exact .inr ⟨_, rfl⟩

theorem fst_transaction (t : Tables) (body : Tables → Except AppError (α × Tables)) :
    (t.transaction body).1 = (body t).map Prod.fst := by
  unfold transaction
  cases body t with
  | error e => rfl
  | ok r => rfl

theorem answered_fresh (h : (answered draw (.ok (claimFromRow (claimedRow bound draw)))) = flow)
    (howns : ∀ claim, flow ≠ .owns claim) : False := by
  subst h
  exact howns _ (if_pos rfl)

theorem claimBody_truthful_iff {t : Tables} {bound : BoundRequest} (hinv : t.Inv)
    (howns : ∀ claim, answered draw ((claimBody env bound draw t).map Prod.fst) ≠ .owns claim) :
    Truthful none ((claimBody env bound draw t).map Prod.fst)
        (answered draw ((claimBody env bound draw t).map Prod.fst)) ↔ t.Replayable bound := by
  have hinsert : ∀ t' : Tables, t'.requests = t.requests → t.keyRow bound = none →
      t.requests.values.find? (fun row => row.intentKey == bound.intentKey && row.safetyLease.live) = none →
      (∀ claim, answered draw ((t'.insertOrFind bound draw).map Prod.fst) ≠ .owns claim) →
      ¬ Truthful none ((t'.insertOrFind bound draw).map Prod.fst)
        (answered draw ((t'.insertOrFind bound draw).map Prod.fst)) := by
    intro t' hrequests hkey hlive howns
    have hkey' : t'.keyRow bound = none := by rw [keyRow, hrequests]; exact hkey
    have hcases : t'.insertOrFind bound draw = .error idempotencyClaimInconsistent ∨
        ∃ t'', t'.insertOrFind bound draw = .ok (claimFromRow (claimedRow bound draw), t'') :=
      insertOrFind_cases hkey' (hrequests ▸ hlive)
    rcases hcases with herror | ⟨t'', hok⟩
    · rw [herror]
      exact not_truthful_unavailable _
    · rw [hok] at howns
      exact (answered_fresh rfl howns).elim
  unfold Replayable
  unfold claimBody at howns ⊢
  cases hkey : t.keyRow bound with
  | some row =>
    simp only [hkey] at howns ⊢
    have hconsistent := hinv.consistent_of_mem (List.mem_of_find?_eq_some hkey)
    have hscope : row.intentKey.scopeFamilyId = bound.intentKey.scopeFamilyId := by
      have hfound := List.find?_some hkey
      simp only [Bool.and_eq_true, beq_iff_eq] at hfound
      exact hfound.1
    unfold matchKey at howns ⊢
    split at howns
    · rename_i hother
      rw [if_pos hother]
      refine iff_of_false (not_truthful_unavailable _) fun h => ?_
      rw [h.1] at hother
      simp at hother
    · rename_i hsame
      rw [if_neg hsame]
      push Not at hsame
      have hintent : row.intentKey = bound.intentKey := by
        cases hrow : row.intentKey
        cases hbound : bound.intentKey
        simp_all
      exact (answered_matched hconsistent howns).trans (and_iff_right hintent).symm
  | none =>
    simp only [hkey] at howns ⊢
    cases hprior : t.priorRow bound.intentKey with
    | none =>
      simp only [hprior] at howns ⊢
      refine iff_of_false (hinsert t rfl hkey ?_ howns) (by simp)
      rw [List.find?_eq_none]
      intro row hrow hlive
      simp only [Bool.and_eq_true] at hlive
      have hmem : row ∈ t.requests.values.filter fun row => row.intentKey == bound.intentKey :=
        List.mem_filter.mpr ⟨hrow, hlive.1⟩
      rw [priorRow_eq_none hprior] at hmem
      cases hmem
    | some prior =>
      simp only [hprior] at howns ⊢
      have hconsistent := hinv.consistent_of_mem (priorRow_mem hprior)
      cases hlive : prior.safetyLease.live with
      | true =>
        simp only [hlive, if_true] at howns ⊢
        rw [show (Except.ok (claimFromRow prior, t) : Except AppError _).map Prod.fst =
          .ok (claimFromRow prior) from rfl] at howns ⊢
        rw [answered_matched hconsistent howns]
        have hopen := hconsistent.live_iff.mp hlive
        refine iff_of_true (.inr fun hterminal => ?_) ⟨prior, rfl, hlive⟩
        exact absurd ((RequestState.rank_terminal _).mp hterminal) (by omega)
      | false =>
        simp only [hlive, Bool.false_eq_true, if_false] at howns ⊢
        have hnot : ¬ ∃ p, some prior = some p ∧ p.safetyLease.live = true := by
          rintro ⟨p, hp, hplive⟩
          obtain rfl := Option.some.inj hp
          rw [hlive] at hplive
          cases hplive
        cases hconsume : t.consumeApproval env bound prior draw with
        | error refusal => exact iff_of_false (not_truthful_unavailable refusal) hnot
        | ok t₁ =>
          rw [hconsume] at howns
          obtain ⟨approval, -, rfl⟩ := consumeApproval_ok hinv.keyed hconsume
          exact iff_of_false (hinsert _ rfl hkey (priorRow_not_live hprior hlive) howns) hnot

end Tables

namespace Run

/-- Whatever has happened, the answer is the truth exactly where the repository finds a request to answer
with, or the database has failed. -/
theorem replay_truthful_iff (env : RepositoryEnv) (build : ι → String × String) (acts : List (Action ι))
    (database : Option String) {request : FlowRequest ι} {draw : ClaimDraw}
    (hvalid : validateExecutionRequest build request = .ok ())
    (howns : ∀ claim, runGeneratedBacktest env build (Run.exec env acts).tables database request draw ≠
      .owns claim) :
    Truthful database ((Run.exec env acts).tables.claimIdempotentRequest env request draw).1
        (runGeneratedBacktest env build (Run.exec env acts).tables database request draw) ↔
      database.isSome ∨ ∃ bound, request.bound? = some bound ∧
        (Run.exec env acts).tables.Replayable bound := by
  have h := (Inv.exec env acts).tables
  generalize (Run.exec env acts).tables = t at h howns
  obtain ⟨bound, hbound⟩ := bound_of_valid hvalid
  unfold runGeneratedBacktest at howns ⊢
  simp only [hvalid] at howns ⊢
  cases database with
  | some error => exact iff_of_true rfl (.inl rfl)
  | none =>
    have hclaim : (t.claimIdempotentRequest env request draw).1 =
        (Tables.claimBody env bound draw t).map Prod.fst := by
      rw [Tables.claimIdempotentRequest, hbound]
      exact Tables.fst_transaction t _
    simp only [Tables.tryClaim, hclaim] at howns ⊢
    rw [← answered.eq_def] at howns ⊢
    rw [Tables.claimBody_truthful_iff h howns]
    simp [hbound]

/-- Intents that are their own fingerprint, and tokens that are their own hash. -/
def plainEnv : RepositoryEnv where
  replacementKeyHash token := token
  uuid text := some text

def plainRequest (key intent : String) : FlowRequest String where
  userId := some 7
  executionContext := some ⟨7, "family"⟩
  idempotencyKey := some key
  requestFingerprint := some intent
  fingerprintVersion := some "v1"
  replacementApprovalId := none
  replacementApprovalToken := none
  intent := intent

def plainDraw (n : ℕ) : ClaimDraw where
  requestId := "request-" ++ n.repr
  traceId := "trace-" ++ n.repr
  createdAt := n
  now := n
  consumedAt := n

/-- A worker claims a request and is lost; an operator abandons the request. -/
def abandonedRequest : List (Action String) :=
  [.claimIdempotentRequest (plainRequest "first-key" "intent") (plainDraw 0),
    .operatorTerminalizeIdempotentRequest "request-0" .claimed 1 .abandoned
      (Dict.empty.insert "reason" "worker lost")]

def afterAbandoned (key intent : String) : Flow :=
  runGeneratedBacktest plainEnv (fun intent => ("v1", intent)) (exec plainEnv abandonedRequest).tables none
    (plainRequest key intent) (plainDraw 1)

def abandonedClaim (key intent : String) : Except AppError RequestClaim :=
  ((exec plainEnv abandonedRequest).tables.claimIdempotentRequest plainEnv (plainRequest key intent)
    (plainDraw 1)).1

theorem afterAbandoned_retry :
    afterAbandoned "first-key" "intent" = .raises (.validationError "AIBacktestRunningResponse") := by
  rfl

theorem afterAbandoned_reused :
    afterAbandoned "first-key" "other" = .raises (.appError serviceUnavailable) := by
  rfl

/-- The retry of the abandoned request meets a model that does not know its state, and the refusal of a
key that is used again for another intent is lost. -/
theorem replay_not_truthful :
    ¬ Truthful none (abandonedClaim "first-key" "intent") (afterAbandoned "first-key" "intent") ∧
      ¬ Truthful none (abandonedClaim "first-key" "other") (afterAbandoned "first-key" "other") := by
  have hretry : abandonedClaim "first-key" "intent" =
      .ok ⟨"request-0", some "trace-0", .abandoned, .closed, 2, none⟩ := by rfl
  have hreused : abandonedClaim "first-key" "other" = .error (idempotencyKeyReused "request-0") := by rfl
  rw [hretry, hreused, afterAbandoned_retry, afterAbandoned_reused]
  refine ⟨?_, not_truthful_unavailable _⟩
  rintro ⟨error, herror, -⟩
  cases herror

theorem replay_truthful_iff_abandoned :
    Truthful none (abandonedClaim "first-key" "intent") (afterAbandoned "first-key" "intent") ↔
      (none : Option String).isSome ∨ ∃ bound, (plainRequest "first-key" "intent").bound? = some bound ∧
        (exec plainEnv abandonedRequest).tables.Replayable bound := by
  refine replay_truthful_iff plainEnv (fun intent => ("v1", intent)) abandonedRequest none
    (by rfl) fun claim howns => ?_
  have hretry := afterAbandoned_retry
  rw [afterAbandoned, howns] at hretry
  cases hretry

end Run
end QuantAgent.AIBacktest
