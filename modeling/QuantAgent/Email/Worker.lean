import QuantAgent.Email.OutboxSafety

namespace QuantAgent.Email
set_option autoImplicit true

/-- `_normalize_text` -/
def normalizeText (value : Option String) : Option String :=
  value.bind fun v => if pyStrip v = "" then none else some (pyStrip v)

/-- The settings that decide whether a report may be sent. -/
structure DeliverySettings where
  emailDeliveryEnabled : Bool
  emailEffectiveRolloutMode : String
  emailReportCompletedTriggerEnabled : Bool
  emailLocalRecipientAllowlistValues : List String
  emailFromAddress : Option String
  emailFromName : Option String
  emailRetryBaseSeconds : ℤ

/-- The row that the revalidation reads. -/
structure DeliveryContext where
  userId : Option String
  reportId : Option String
  recipientEmail : Option String
  userEmail : Option String
  dailyReportEmail : Bool
  actionEmails : Bool
  reportStatus : Option String

structure EligibilityDecision where
  allowed : Bool
  reasonCode : String
  reasonMessage : String
  userId : Option String := none
  reportId : Option String := none
  recipientEmail : Option String := none
deriving DecidableEq

def sendableReportStatuses : List String := ["completed", "published", "sent"]

def policySkipReasonCodes : List String :=
  ["delivery_disabled", "rollout_disabled", "trigger_disabled", "recipient_not_allowlisted",
    "daily_report_email_disabled", "action_emails_disabled", "report_not_sendable"]

/-- `resolve_report_completed_delivery_eligibility` -/
def resolveEligibility (settings : DeliverySettings) (context : Option DeliveryContext) :
    EligibilityDecision :=
  if !settings.emailDeliveryEnabled then ⟨false, "delivery_disabled", "Email delivery is disabled", none, none, none⟩
  else if settings.emailEffectiveRolloutMode = "disabled" then
    ⟨false, "rollout_disabled", "Email rollout is disabled", none, none, none⟩
  else if !settings.emailReportCompletedTriggerEnabled then
    ⟨false, "trigger_disabled", "Report-completion email trigger is disabled", none, none, none⟩
  else
    match context with
    | none => ⟨false, "report_or_user_missing", "User or report was not found", none, none, none⟩
    | some context =>
      let userId := normalizeText context.userId
      let reportId := normalizeText context.reportId
      match (normalizeText context.recipientEmail).or (normalizeText context.userEmail) with
      | none => ⟨false, "recipient_missing", "User email is not available", userId, reportId, none⟩
      | some recipientEmail =>
        if settings.emailEffectiveRolloutMode = "allowlist" ∧
            pyLower recipientEmail ∉ settings.emailLocalRecipientAllowlistValues.map pyLower then
          ⟨false, "recipient_not_allowlisted", "Recipient is not eligible for the controlled rollout",
            userId, reportId, none⟩
        else if !context.dailyReportEmail then
          ⟨false, "daily_report_email_disabled", "Notification settings do not permit report emails",
            userId, reportId, some recipientEmail⟩
        else if !context.actionEmails then
          ⟨false, "action_emails_disabled", "Notification settings do not permit action emails",
            userId, reportId, some recipientEmail⟩
        else if ¬ (normalizeText context.reportStatus).any (sendableReportStatuses.contains ·) then
          ⟨false, "report_not_sendable", "Report is not in a sendable state", userId, reportId,
            some recipientEmail⟩
        else ⟨true, "eligible", "Report delivery is eligible", userId, reportId, some recipientEmail⟩

/-- The texts of a rendered payload. -/
structure RenderedPayload where
  subject : Option String
  htmlBody : Option String
  html : Option String
  textBody : Option String
  text : Option String
  recipientEmail : Option String

structure EmailDeliveryMessage where
  recipientEmail : String
  senderEmail : String
  senderName : Option String
  subject : String
  htmlBody : String
  textBody : String
  correlationId : Option String
  idempotencyKey : String
  templateName : String
  templateVersion : String

structure SendResult where
  status : String
  retryable : Bool
  providerMessageId : Option String
  errorCode : Option String
  errorMessage : Option String

/-- What a call raises: the application's own error, or another exception by its type and text. -/
inductive Raised where
  | appError (error : AppError)
  | exception (typeName text : String)

/-- `f"{type(exc).__name__}: {exc}"` -/
def Raised.text : Raised → String
  | appError error => "AppError: " ++ error.message
  | exception typeName text => typeName ++ ": " ++ text

/-- A database call of the worker on a claim. -/
inductive WorkerCall where
  | revalidation
  | markSent
  | markRetryPending
  | markFailed
  | markCancelled
  | release
deriving DecidableEq

/-- What the worker takes from elsewhere: `str.casefold`, the payload of a row as a mapping (if it is
one) and the provider. -/
structure WorkerEnv extends OutboxEnv where
  casefold : String → String
  rendered : EmailPayload → Option RenderedPayload
  send : EmailDeliveryMessage → Except Raised SendResult

/-- What the processing of one claim meets: the row its revalidation reads, the calls that the database
fails and with what, the time of each call, and what others do to the outbox before it. -/
structure World where
  context : Option DeliveryContext
  fails : WorkerCall → Option (String × String)
  now : WorkerCall → ℤ
  others : WorkerCall → List OutboxAction

/-- A database call as it went. -/
structure CallEntry where
  call : WorkerCall
  failed : Bool
  before : Outbox
  after : Outbox

structure Processing where
  outbox : Outbox
  log : List CallEntry

def maxBackoffSeconds : ℤ := 30 * 60

/-- `_calculate_retry_delay` -/
def calculateRetryDelay (settings : DeliverySettings) (attemptCount : ℤ) : ℤ :=
  min (max 1 settings.emailRetryBaseSeconds * 2 ^ (attemptCount - 1).toNat) maxBackoffSeconds

/-- `execute_one` wraps what the driver raises. -/
def dbQueryFailed (failure : String × String) : AppError where
  statusCode := 503
  component := "db"
  code := "db_query_failed"
  message := "Database query failed"
  details := [("error", failure.1 ++ ": " ++ failure.2)]

def payloadInvalid (deliveryId : String) : AppError where
  statusCode := 503
  component := "email_worker"
  code := "email_delivery_payload_invalid"
  message := "Email delivery payload is invalid"
  details := [("delivery_id", deliveryId)]

def payloadMissing (deliveryId : String) : AppError where
  statusCode := 503
  component := "email_worker"
  code := "email_delivery_payload_missing"
  message := "Email delivery payload is incomplete"
  details := [("delivery_id", deliveryId)]

section Process
variable (env : WorkerEnv) (settings : DeliverySettings) (world : World)

/-- The outbox when a call reaches the database. -/
def reached (call : WorkerCall) (s : Outbox) : Outbox :=
  (world.others call).foldl (fun s action => (s.exec env.toOutboxEnv action).2) s

/-- A statement of the outbox module: fails as a whole, or is run. -/
def dbCall (call : WorkerCall) (statement : Outbox → Except AppError Delivery × Outbox)
    (p : Processing) : Except AppError Delivery × Processing :=
  let s := reached env world call p.outbox
  match world.fails call with
  | some failure => (.error (dbQueryFailed failure), ⟨s, p.log ++ [⟨call, true, s, s⟩]⟩)
  | none =>
    let r := statement s
    (r.1, ⟨r.2, p.log ++ [⟨call, false, s, r.2⟩]⟩)

/-- `load_report_completed_delivery_context`: its own query, so the driver's exception comes as it is. -/
def loadContext (p : Processing) : Except Raised (Option DeliveryContext) × Processing :=
  let s := reached env world .revalidation p.outbox
  match world.fails .revalidation with
  | some failure =>
    (.error (.exception failure.1 failure.2), ⟨s, p.log ++ [⟨.revalidation, true, s, s⟩]⟩)
  | none => (.ok world.context, ⟨s, p.log ++ [⟨.revalidation, false, s, s⟩]⟩)

/-- `_revalidate_claim` on what it has read. -/
def revalidated (claim : Delivery) (context : Option DeliveryContext) : EligibilityDecision :=
  let decision := resolveEligibility settings context
  let sameRecipient := match normalizeText decision.recipientEmail, normalizeText (some claim.recipientEmail) with
    | some current, some queued => env.casefold current == env.casefold queued
    | _, _ => false
  if decision.allowed && !sameRecipient then
    { decision with
      allowed := false
      reasonCode := "recipient_changed"
      reasonMessage := "Notification recipient changed after enqueue" }
  else decision

/-- `_build_message_from_claim` -/
def buildMessageFromClaim (claim : Delivery) : Except AppError EmailDeliveryMessage :=
  match env.rendered claim.metadata.payload with
  | none => .error (payloadInvalid claim.deliveryId)
  | some payload =>
    let nonEmpty := fun (value : Option String) => value.filter (· ≠ "")
    match normalizeText payload.subject, normalizeText ((nonEmpty payload.htmlBody).or payload.html),
      normalizeText ((nonEmpty payload.textBody).or payload.text),
      (normalizeText (some claim.recipientEmail)).or (normalizeText payload.recipientEmail) with
    | some subject, some htmlBody, some textBody, some recipientEmail =>
      .ok
        { recipientEmail := recipientEmail
          senderEmail := (normalizeText settings.emailFromAddress).getD ""
          senderName := settings.emailFromName
          subject := subject
          htmlBody := htmlBody
          textBody := textBody
          correlationId := normalizeText claim.metadata.correlationId
          idempotencyKey := claim.metadata.idempotencyKey
          templateName := claim.metadata.templateName
          templateVersion := claim.metadata.templateVersion }
    | _, _, _, _ => .error (payloadMissing claim.deliveryId)

def claimToken (claim : Delivery) : String := claim.metadata.claimToken.getD "None"

/-- `_mark_failed`; a call that fails is reported as a lost claim, and no more. -/
def workerMarkFailed (claim : Delivery) (reasonCode errorMessage : String) (p : Processing) : Processing :=
  (dbCall env world .markFailed
    (fun s => s.markFailed env.toOutboxEnv claim.deliveryId (claimToken claim) (some reasonCode)
      (some errorMessage) none (world.now .markFailed)) p).2

/-- `_mark_cancelled` -/
def workerMarkCancelled (claim : Delivery) (reasonCode errorMessage : String) (p : Processing) :
    Processing :=
  (dbCall env world .markCancelled
    (fun s => s.markCancelled env.toOutboxEnv claim.deliveryId (claimToken claim) (some reasonCode)
      (some errorMessage) (world.now .markCancelled)) p).2

/-- `_handle_revalidation_rejection` -/
def handleRevalidationRejection (claim : Delivery) (decision : EligibilityDecision) (p : Processing) :
    Processing :=
  if policySkipReasonCodes.contains decision.reasonCode || decision.reasonCode == "recipient_changed" then
    workerMarkCancelled env world claim decision.reasonCode decision.reasonMessage p
  else workerMarkFailed env world claim decision.reasonCode decision.reasonMessage p

/-- `_handle_app_error` -/
def handleAppError (claim : Delivery) (error : AppError) (p : Processing) : Processing :=
  workerMarkFailed env world claim error.code error.message p

/-- What `_process_claim` does with the answer of the provider. -/
def recordSendResult (claim : Delivery) (result : SendResult) (p : Processing) : Processing :=
  if result.status = "accepted" then
    (dbCall env world .markSent
      (fun s => s.markSent claim.deliveryId (claimToken claim) result.providerMessageId
        (world.now .markSent)) p).2
  else if result.retryable then
    (dbCall env world .markRetryPending
      (fun s => s.markRetryPending env.toOutboxEnv claim.deliveryId (claimToken claim)
        (world.now .markRetryPending + calculateRetryDelay settings claim.metadata.attempts)
        result.errorCode result.errorMessage result.providerMessageId (world.now .markRetryPending)) p).2
  else
    (dbCall env world .markFailed
      (fun s => s.markFailed env.toOutboxEnv claim.deliveryId (claimToken claim) result.errorCode
        result.errorMessage result.providerMessageId (world.now .markFailed)) p).2

/-- `_process_claim`, with the exception that escapes it. -/
def processClaim (claim : Delivery) (p : Processing) : Option Raised × Processing :=
  if claim.metadata.submissionStatus = some .cancelled then (none, p)
  else
    match loadContext env world p with
    | (.error (.appError error), p) => (none, handleAppError env world claim error p)
    | (.error raised, p) => (some raised, p)
    | (.ok context, p) =>
      let decision := revalidated env settings claim context
      if !decision.allowed then (none, handleRevalidationRejection env world claim decision p)
      else
        match buildMessageFromClaim env settings claim with
        | .error error => (none, handleAppError env world claim error p)
        | .ok message =>
          match env.send message with
          | .error (.appError error) => (none, handleAppError env world claim error p)
          | .error raised => (some raised, p)
          | .ok result => (none, recordSendResult env settings world claim result p)

/-- `_process_claim_guarded` -/
def processClaimGuarded (claim : Delivery) (p : Processing) : Processing :=
  match processClaim env settings world claim p with
  | (none, p) => p
  | (some raised, p) =>
    (dbCall env world .release
      (fun s => s.markRetryPending env.toOutboxEnv claim.deliveryId (claimToken claim)
        (world.now .release + calculateRetryDelay settings claim.metadata.attempts)
        (some "unexpected_worker_error") (some raised.text) none (world.now .release)) p).2

end Process

namespace CallEntry

/-- The call has changed nothing. -/
def Kept (e : CallEntry) : Prop := e.after = e.before

/-- The call has put the delivery off, while it had attempts left. -/
def Retried (e : CallEntry) (deliveryId : String) : Prop :=
  ∃ old new, e.before.rows.get? deliveryId = some old ∧ old.metadata.attempts < old.metadata.allowed ∧
    e.after = { e.before with rows := e.before.rows.insert deliveryId new } ∧
    new.status = .draft ∧ new.metadata.submissionStatus = some .retryPending

/-- The call has failed the delivery, which had no attempt left. -/
def Exhausted (e : CallEntry) (deliveryId : String) : Prop :=
  ∃ old new, e.before.rows.get? deliveryId = some old ∧ old.metadata.allowed ≤ old.metadata.attempts ∧
    e.after = { e.before with rows := e.before.rows.insert deliveryId new } ∧
    new.status = .failed ∧ new.metadata.submissionStatus = some .failed

end CallEntry

section Calls
variable {env : WorkerEnv} {settings : DeliverySettings} {world : World}

variable (env) (world) in
/-- What a call adds to the log. -/
theorem dbCall_entry (call : WorkerCall) (statement : Outbox → Except AppError Delivery × Outbox)
    (p : Processing) :
    ∃ e, (dbCall env world call statement p).2.log = p.log ++ [e] ∧ e.call = call ∧
      (e.failed = true → e.Kept) ∧ (e.Kept ∨ e.after = (statement e.before).2) := by
  unfold dbCall
  cases world.fails call with
  | some failure => exact ⟨_, rfl, rfl, fun _ => rfl, .inl rfl⟩
  | none => exact ⟨_, rfl, rfl, nofun, .inr rfl⟩

theorem markWhere_cases (s : Outbox) (deliveryId claimToken : String) (set : Delivery → Delivery) :
    (s.markWhere deliveryId claimToken set).2 = s ∨
      ∃ old, s.rows.get? deliveryId = some old ∧ (s.markWhere deliveryId claimToken set).2 =
        { s with rows := s.rows.insert deliveryId (set old) } := by
  unfold Outbox.markWhere Outbox.updateWhere
  cases hget : s.rows.get? deliveryId with
  | none => exact .inl rfl
  | some old =>
    dsimp only
    split
    · exact .inr ⟨old, rfl, rfl⟩
    · exact .inl rfl

/-- The guard leaves the claim, puts the delivery off, or fails it for want of attempts. -/
theorem release_cases {e : CallEntry} {deliveryId token category : String} {availableAt now : ℤ}
    {errorMessage : Option String}
    (h : e.Kept ∨ e.after = (e.before.markRetryPending env.toOutboxEnv deliveryId token availableAt
      (some category) errorMessage none now).2) :
    e.Kept ∨ e.Retried deliveryId ∨ e.Exhausted deliveryId := by
  rcases h with hkept | hafter
  · exact .inl hkept
  · unfold Outbox.markRetryPending at hafter
    rcases markWhere_cases e.before deliveryId token
      (Outbox.retryRow availableAt (safeError env.toOutboxEnv errorMessage) (normalizeErrorCode (some category))
        none now) with hstale | ⟨old, hget, hwrote⟩
    · exact .inl (hafter.trans hstale)
    · rw [hwrote] at hafter
      by_cases hleft : old.metadata.attempts < old.metadata.allowed
      · refine .inr (.inl ⟨old, _, hget, hleft, hafter, ?_, ?_⟩)
        · simp only [Outbox.retryRow, hleft, decide_true, ↓reduceIte]
        · simp only [Outbox.retryRow, hleft, decide_true, ↓reduceIte]
      · refine .inr (.inr ⟨old, _, hget, Int.not_lt.mp hleft, hafter, ?_, ?_⟩)
        · simp only [Outbox.retryRow, hleft, decide_false, Bool.false_eq_true, ↓reduceIte]
        · simp only [Outbox.retryRow, hleft, decide_false, Bool.false_eq_true, ↓reduceIte]

/-- One more call, which changes nothing if it fails. -/
def OneMore (p p' : Processing) : Prop :=
  ∃ e, p'.log = p.log ++ [e] ∧ (e.failed = true → e.Kept)

theorem dbCall_oneMore (call : WorkerCall) (statement : Outbox → Except AppError Delivery × Outbox)
    (p : Processing) : OneMore p (dbCall env world call statement p).2 := by
  obtain ⟨e, hlog, -, hkept, -⟩ := dbCall_entry env world call statement p
  exact ⟨e, hlog, hkept⟩

variable (env) (world) in
theorem handleRevalidationRejection_oneMore (claim : Delivery) (decision : EligibilityDecision)
    (p : Processing) : OneMore p (handleRevalidationRejection env world claim decision p) := by
  unfold handleRevalidationRejection
  split
  · exact dbCall_oneMore .markCancelled _ p
  · exact dbCall_oneMore .markFailed _ p

theorem recordSendResult_oneMore (claim : Delivery) (result : SendResult) (p : Processing) :
    OneMore p (recordSendResult env settings world claim result p) := by
  unfold recordSendResult
  split
  · exact dbCall_oneMore .markSent _ p
  · split
    · exact dbCall_oneMore .markRetryPending _ p
    · exact dbCall_oneMore .markFailed _ p

variable (env) (settings) (world) in
/-- What `_process_claim` leaves in the log once the revalidation has been read. -/
theorem processClaim_cases (claim : Delivery) (s : Outbox) :
    (processClaim env settings world claim ⟨s, []⟩).2.log = [] ∧
        (processClaim env settings world claim ⟨s, []⟩).1 = none ∨
      ∃ e, e.call = .revalidation ∧ e.Kept ∧
        (OneMore ⟨s, [e]⟩ (processClaim env settings world claim ⟨s, []⟩).2 ∧ e.failed = false ∧
            (processClaim env settings world claim ⟨s, []⟩).1 = none ∨
          (processClaim env settings world claim ⟨s, []⟩).2.log = [e] ∧
            ((processClaim env settings world claim ⟨s, []⟩).1 ≠ none)) := by
  unfold processClaim
  split
  · exact .inl ⟨rfl, rfl⟩
  · unfold loadContext
    cases world.fails .revalidation with
    | some failure => exact .inr ⟨⟨.revalidation, true, _, _⟩, rfl, rfl, .inr ⟨rfl, nofun⟩⟩
    | none =>
      dsimp only
      let reread := reached env world .revalidation s
      refine .inr ⟨⟨.revalidation, false, reread, reread⟩, rfl, rfl, ?_⟩
      split
      · obtain ⟨e, hlog, hkept⟩ := handleRevalidationRejection_oneMore env world claim
          (revalidated env settings claim world.context) ⟨_, _⟩
        exact .inl ⟨⟨e, hlog, hkept⟩, rfl, rfl⟩
      · split
        · exact .inl ⟨dbCall_oneMore .markFailed _ _, rfl, rfl⟩
        · split
          · exact .inl ⟨dbCall_oneMore .markFailed _ _, rfl, rfl⟩
          · exact .inr ⟨rfl, nofun⟩
          · exact .inl ⟨recordSendResult_oneMore claim _ _, rfl, rfl⟩

/-- The log of one claim: its revalidation, and what the worker then writes. -/
inductive LogOf (deliveryId : String) : List CallEntry → Prop where
  | skipped : LogOf deliveryId []
  | read (e : CallEntry) (hcall : e.call = .revalidation) (hkept : e.Kept) (hread : e.failed = false)
      (e' : CallEntry) (h : e'.failed = true → e'.Kept) : LogOf deliveryId [e, e']
  | escaped (e : CallEntry) (hcall : e.call = .revalidation) (hkept : e.Kept) (e' : CallEntry)
      (hcall' : e'.call = .release) (hfailed : e'.failed = true → e'.Kept)
      (h : e'.Kept ∨ e'.Retried deliveryId ∨ e'.Exhausted deliveryId) : LogOf deliveryId [e, e']

variable (env) (settings) (world) in
theorem processClaimGuarded_log (claim : Delivery) (s : Outbox) :
    LogOf claim.deliveryId (processClaimGuarded env settings world claim ⟨s, []⟩).log := by
  have hcases := processClaim_cases env settings world claim s
  unfold processClaimGuarded
  revert hcases
  cases processClaim env settings world claim ⟨s, []⟩ with
  | mk escaped p =>
    rintro (⟨hlog, hnone⟩ | ⟨e, hcall, hkept, ⟨⟨e', hlog, hfailed⟩, hread, hnone⟩ | ⟨hlog, hescaped⟩⟩)
    · dsimp only at hlog hnone
      subst hnone
      dsimp only
      rw [hlog]
      exact .skipped
    · dsimp only at hlog hnone
      subst hnone
      dsimp only
      rw [hlog]
      exact .read e hcall hkept hread e' hfailed
    · cases escaped with
      | none => exact absurd rfl hescaped
      | some raised =>
        dsimp only at hlog ⊢
        obtain ⟨e', hlog', hcall', hfailed, hwrote⟩ := dbCall_entry env world .release
          (fun s => s.markRetryPending env.toOutboxEnv claim.deliveryId (claimToken claim)
            (world.now .release + calculateRetryDelay settings claim.metadata.attempts)
            (some "unexpected_worker_error") (some raised.text) none (world.now .release)) p
        rw [hlog', hlog]
        exact .escaped e hcall hkept e' hcall' hfailed (release_cases hwrote)

end Calls

/-- After a database failure the worker leaves the delivery claimed, or puts it off. -/
def NeverLost (p : Processing) (deliveryId : String) : Prop :=
  (∃ e ∈ p.log, e.failed = true) → ∀ e ∈ p.log, e.Kept ∨ e.Retried deliveryId

/-- After a database failure the worker leaves the delivery claimed or puts it off, but for one whose
revalidation could not be read and which has no attempt left. -/
theorem lost_only_exhausted (env : WorkerEnv) (settings : DeliverySettings) (world : World)
    (claim : Delivery) (s : Outbox) :
    (∃ e ∈ (processClaimGuarded env settings world claim ⟨s, []⟩).log, e.failed = true) →
      ∀ e ∈ (processClaimGuarded env settings world claim ⟨s, []⟩).log,
        e.Kept ∨ e.Retried claim.deliveryId ∨
          e.call = .release ∧ e.Exhausted claim.deliveryId ∧
            ∃ e' ∈ (processClaimGuarded env settings world claim ⟨s, []⟩).log,
              e'.call = .revalidation ∧ e'.failed = true := by
  have hlog := processClaimGuarded_log env settings world claim s
  revert hlog
  generalize (processClaimGuarded env settings world claim ⟨s, []⟩).log = log
  intro hlog hsome
  cases hlog with
  | skipped => exact List.forall_mem_nil _
  | read e hcall hkept hread e' hfailed =>
    obtain ⟨f, hf, hfails⟩ := hsome
    have hkept' : e'.Kept := by
      rcases List.mem_cons.mp hf with rfl | hf
      · rw [hread] at hfails
        cases hfails
      · exact hfailed (List.mem_singleton.mp hf ▸ hfails)
    intro g hg
    rcases List.mem_cons.mp hg with rfl | hg
    · exact .inl hkept
    · rw [List.mem_singleton.mp hg]
      exact .inl hkept'
  | escaped e hcall hkept e' hcall' hfailed hreleased =>
    obtain ⟨f, hf, hfails⟩ := hsome
    intro g hg
    rcases List.mem_cons.mp hg with rfl | hg
    · exact .inl hkept
    · rw [List.mem_singleton.mp hg]
      rcases hreleased with hkept' | hretried | hexhausted
      · exact .inl hkept'
      · exact .inr (.inl hretried)
      · -- An exhausted delivery was written, so it is the revalidation that failed.
        cases hf' : e'.failed with
        | true => exact .inl (hfailed hf')
        | false =>
          rcases List.mem_cons.mp hf with rfl | hf
          · exact .inr (.inr ⟨hcall', hexhausted, f, List.mem_cons_self, hcall, hfails⟩)
          · rw [List.mem_singleton.mp hf, hf'] at hfails
            cases hfails

/-- A worker whose provider accepts every message. -/
def acceptingEnv : WorkerEnv where
  uuid4 := fun n => toString n
  uuid5 := id
  redact := id
  casefold := pyLower
  rendered := fun payload =>
    some ⟨some "Report", some payload.rendered, none, some payload.rendered, none, none⟩
  send := fun _ => .ok ⟨"accepted", false, some "message", none, none⟩

def openSettings : DeliverySettings := ⟨true, "production", true, [], some "sender@x", some "Sender", 60⟩

/-- A claimed delivery of three attempts at most. -/
def claimedDelivery (attempts : ℤ) : Delivery where
  deliveryId := "delivery"
  userId := "7"
  reportId := "report"
  strategyId := none
  recipientEmail := "user@x"
  status := .draft
  provider := "brevo"
  createdAt := 0
  metadata :=
    { submissionStatus := some .processing
      triggerType := "report_completed"
      templateName := "report_completed"
      templateVersion := "v1"
      idempotencyKey := "key"
      payload := ⟨none, "body"⟩
      attemptCount := some attempts
      maxAttempts := some 3
      availableAt := some 0
      correlationId := none
      claimToken := some "token"
      claimExpiresAt := some 100
      claimedBy := some "worker" }

/-- The database fails one call of the worker. -/
def failingWorld (call : WorkerCall) : World where
  context := some ⟨some "7", some "report", some "user@x", none, true, true, some "completed"⟩
  fails := fun c => if c = call then some ("OSError", "connection reset") else none
  now := fun _ => 10
  others := fun _ => []

def processFailing (call : WorkerCall) (attempts : ℤ) : Processing :=
  processClaimGuarded acceptingEnv openSettings (failingWorld call) (claimedDelivery attempts)
    ⟨⟨Dict.empty.insert "delivery" (claimedDelivery attempts), 0⟩, []⟩

/-- At the last attempt a revalidation that cannot be read fails the delivery for good. -/
theorem last_attempt_lost :
    ¬ NeverLost (processFailing .revalidation 3) "delivery" ∧
      ((processFailing .revalidation 3).outbox.rows.get? "delivery").map Delivery.status = some .failed := by
  refine ⟨?_, rfl⟩
  intro h
  have hlast := h ⟨_, List.mem_cons_self, rfl⟩ _ (List.mem_cons_of_mem _ List.mem_cons_self)
  rcases hlast with hkept | ⟨old, new, hget, hleft, -⟩
  · have hstatus := congrArg (fun s : Outbox => (s.rows.get? "delivery").map Delivery.status) hkept
    cases hstatus
  · cases hget
    exact absurd hleft (by decide)

/-- An accepted message whose record fails stays claimed. -/
theorem unrecorded_stays_claimed :
    (processFailing .markSent 3).log.map CallEntry.failed = [false, true] ∧
      ∀ e ∈ (processFailing .markSent 3).log, e.Kept ∨ e.Retried "delivery" ∨
        e.call = .release ∧ e.Exhausted "delivery" ∧
          ∃ e' ∈ (processFailing .markSent 3).log, e'.call = .revalidation ∧ e'.failed = true :=
  ⟨rfl, lost_only_exhausted acceptingEnv openSettings (failingWorld .markSent) (claimedDelivery 3)
    ⟨Dict.empty.insert "delivery" (claimedDelivery 3), 0⟩
    ⟨_, List.mem_cons_of_mem _ List.mem_cons_self, rfl⟩⟩

end QuantAgent.Email
