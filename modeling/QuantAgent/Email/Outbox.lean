import QuantAgent.Lib.Dict
import QuantAgent.Lib.PyText

namespace QuantAgent.Email
set_option autoImplicit true

/-- The column `status` of `email_delivery_history`. -/
inductive DbStatus where
  | draft
  | sent
  | failed
  | resent
deriving DecidableEq

inductive SubmissionStatus where
  | pending
  | retryPending
  | processing
  | sent
  | failed
  | cancelled
deriving DecidableEq

/-- A rendered payload: the strategy it names and the rest of it. -/
structure EmailPayload where
  strategyId : Option String
  rendered : String
deriving DecidableEq

/-- `metadata_jsonb`; a field that is missing or `null` is `none`. -/
structure Metadata where
  submissionStatus : Option SubmissionStatus
  triggerType : String
  templateName : String
  templateVersion : String
  idempotencyKey : String
  payload : EmailPayload
  attemptCount : Option ℤ
  maxAttempts : Option ℤ
  availableAt : Option ℤ
  correlationId : Option String
  claimToken : Option String := none
  claimExpiresAt : Option ℤ := none
  claimedBy : Option String := none
  providerSubmissionStatus : Option String := none
  providerDeliveryStatus : Option String := none
  providerStatusCheckedAt : Option ℤ := none
  providerEventAt : Option ℤ := none
  providerStatusSource : Option String := none
  safeFailureCategory : Option String := none
  lastEventAt : Option ℤ := none
deriving DecidableEq

/-- A row of `email_delivery_history`. -/
structure Delivery where
  deliveryId : String
  userId : String
  reportId : String
  strategyId : Option String
  recipientEmail : String
  status : DbStatus
  provider : String
  createdAt : ℤ
  providerMessageId : Option String := none
  errorMessage : Option String := none
  sentAt : Option ℤ := none
  metadata : Metadata
deriving DecidableEq

/-- `COALESCE((metadata_jsonb ->> 'attempt_count')::int, 0)` -/
def Metadata.attempts (m : Metadata) : ℤ := m.attemptCount.getD 0

/-- `COALESCE((metadata_jsonb ->> 'max_attempts')::int, 1)` -/
def Metadata.allowed (m : Metadata) : ℤ := m.maxAttempts.getD 1

structure EmailDeliveryCreateRequest where
  userId : String
  reportId : String
  triggerType : String
  templateName : String
  templateVersion : String
  recipientEmail : String
  idempotencyKey : String
  payloadJson : EmailPayload
  provider : String := "brevo"
  maxAttempts : ℤ := 5
  availableAt : Option ℤ := none
  correlationId : Option String := none

/-- What the outbox takes from elsewhere: the uuids it draws and derives, and `redact_secrets`
with the e-mail pattern. -/
structure OutboxEnv where
  uuid4 : ℕ → String
  uuid5 : String → String
  redact : String → String

structure AppError where
  statusCode : ℕ
  component : String
  code : String
  message : String
  details : List (String × String)
deriving DecidableEq

/-- The table, and how many uuids have been drawn. -/
structure Outbox where
  rows : Dict String Delivery
  drawn : ℕ

/-- `_safe_error` -/
def safeError (env : OutboxEnv) (value : Option String) : Option String :=
  value.map fun v =>
    let normalized := pyStrip (env.redact v)
    if 500 < normalized.length then String.ofList (normalized.toList.take 497) ++ "..." else normalized

/-- `_normalize_error_code` -/
def normalizeErrorCode (value : Option String) : String :=
  let value := match value with
    | some v => if v = "" then "unknown_error" else v
    | none => "unknown_error"
  let normalized := (pyLower value).toList.filter fun c => c.isAlphanum || c == '_' || c == '-'
  if normalized = [] then "unknown_error" else String.ofList (normalized.take 80)

def deterministicDeliveryId (env : OutboxEnv) (idempotencyKey : String) : String :=
  env.uuid5 ("quantagent-email:" ++ idempotencyKey)

namespace Outbox

/-- `UPDATE .. WHERE delivery_id = .. AND guard RETURNING *` -/
def updateWhere (s : Outbox) (deliveryId : String) (guard : Delivery → Bool)
    (set : Delivery → Delivery) : Option Delivery × Outbox :=
  match s.rows.get? deliveryId with
  | none => (none, s)
  | some row =>
    if guard row then (some (set row), { s with rows := s.rows.insert deliveryId (set row) })
    else (none, s)

/-- The same for the first row in the order `lt` among those `guard` admits. -/
def updateFirst (s : Outbox) (lt : Delivery → Delivery → Bool) (guard : Delivery → Bool)
    (set : Delivery → Delivery) : Option Delivery × Outbox :=
  match (pySorted lt (s.rows.values.filter guard)).head? with
  | none => (none, s)
  | some row => (some (set row), { s with rows := s.rows.insert row.deliveryId (set row) })

def createdRow (env : OutboxEnv) (request : EmailDeliveryCreateRequest) (createdAt now : ℤ) :
    Delivery where
  deliveryId := deterministicDeliveryId env request.idempotencyKey
  userId := request.userId
  reportId := request.reportId
  strategyId := request.payloadJson.strategyId
  recipientEmail := request.recipientEmail
  status := .draft
  provider := request.provider
  createdAt := createdAt
  metadata :=
    { submissionStatus := some .pending
      triggerType := request.triggerType
      templateName := request.templateName
      templateVersion := request.templateVersion
      idempotencyKey := request.idempotencyKey
      payload := request.payloadJson
      attemptCount := some 0
      maxAttempts := some request.maxAttempts
      availableAt := some (request.availableAt.getD now)
      correlationId := request.correlationId }

/-- The row, whether it was created, and the outbox. -/
def createOrGetDelivery (env : OutboxEnv) (s : Outbox) (request : EmailDeliveryCreateRequest)
    (createdAt now : ℤ) : (Delivery × Bool) × Outbox :=
  let row := createdRow env request createdAt now
  match s.rows.get? row.deliveryId with
  | some old => ((old, false), s)
  | none => ((row, true), { s with rows := s.rows.insert row.deliveryId row })

/-- `COALESCE(metadata_jsonb ->> 'submission_status', upper(status)) IN (..)` -/
def requeueable (row : Delivery) : Bool :=
  match row.metadata.submissionStatus with
  | some status => status == .sent || status == .failed || status == .cancelled
  | none => row.status == .sent || row.status == .failed

def requeued (recipientEmail : Option String) (payloadJson : Option EmailPayload) (now : ℤ)
    (row : Delivery) : Delivery :=
  { row with
    status := .draft
    errorMessage := none
    sentAt := none
    providerMessageId := none
    recipientEmail := recipientEmail.getD row.recipientEmail
    metadata :=
      { row.metadata with
        submissionStatus := some .pending
        attemptCount := some 0
        availableAt := some now
        payload := payloadJson.getD row.metadata.payload
        claimToken := none
        claimExpiresAt := none
        claimedBy := none
        providerSubmissionStatus := none
        providerDeliveryStatus := none
        providerStatusCheckedAt := none
        providerEventAt := none
        providerStatusSource := none
        safeFailureCategory := none
        lastEventAt := some now } }

def requeueDelivery (s : Outbox) (deliveryId : String) (recipientEmail : Option String)
    (payloadJson : Option EmailPayload) (cooldownSeconds now : ℤ) : Option Delivery × Outbox :=
  let lastEvent (row : Delivery) : ℤ := (row.metadata.lastEventAt.or row.sentAt).getD row.createdAt
  s.updateWhere deliveryId
    (fun row => requeueable row && decide (lastEvent row ≤ now - max 0 cooldownSeconds))
    (requeued recipientEmail payloadJson now)

/-- `delivery_scope_id IS NULL OR delivery_id = delivery_scope_id`, on a row nobody has locked. -/
def inScope (deliveryScopeId : Option String) (locked : List String) (row : Delivery) : Bool :=
  (deliveryScopeId.all fun id => row.deliveryId == id) && !locked.contains row.deliveryId

def released (now : ℤ) (row : Delivery) : Delivery :=
  let spent := decide (row.metadata.allowed ≤ row.metadata.attempts)
  { row with
    status := if spent then .failed else .draft
    errorMessage := some "claim_expired"
    metadata :=
      { row.metadata with
        submissionStatus := some (if spent then .failed else .retryPending)
        availableAt := some now
        claimToken := none
        claimExpiresAt := none
        claimedBy := none
        safeFailureCategory := some "claim_expired"
        lastEventAt := some now } }

/-- One statement of `release_expired_claims`, which repeats it until it returns no row. -/
def releaseExpiredClaim (s : Outbox) (now : ℤ) (deliveryScopeId : Option String)
    (locked : List String) : Option Delivery × Outbox :=
  s.updateFirst
    (fun a b => decide (a.createdAt < b.createdAt) ||
      a.createdAt == b.createdAt && decide (a.deliveryId < b.deliveryId))
    (fun row => row.status == .draft && row.metadata.submissionStatus == some .processing &&
      row.metadata.claimExpiresAt.any (fun t => decide (t ≤ now)) && inScope deliveryScopeId locked row)
    (released now)

def claimed (claimToken claimedBy : String) (claimExpiresAt now : ℤ) (row : Delivery) : Delivery :=
  { row with
    metadata :=
      { row.metadata with
        submissionStatus := some .processing
        attemptCount := some (row.metadata.attempts + 1)
        claimToken := some claimToken
        claimExpiresAt := some claimExpiresAt
        claimedBy := some claimedBy
        lastEventAt := some now } }

def claimNextDelivery (env : OutboxEnv) (s : Outbox) (claimedBy : String) (claimTtlSeconds now : ℤ)
    (deliveryScopeId : Option String) (locked : List String) : Option Delivery × Outbox :=
  updateFirst { s with drawn := s.drawn + 1 }
    (fun a b => decide (a.metadata.availableAt.getD 0 < b.metadata.availableAt.getD 0) ||
      a.metadata.availableAt == b.metadata.availableAt &&
        (decide (a.createdAt < b.createdAt) ||
          a.createdAt == b.createdAt && decide (a.deliveryId < b.deliveryId)))
    (fun row => row.status == .draft &&
      (row.metadata.submissionStatus == some .pending ||
        row.metadata.submissionStatus == some .retryPending) &&
      row.metadata.availableAt.any (fun t => decide (t ≤ now)) &&
      decide (row.metadata.attempts < row.metadata.allowed) && inScope deliveryScopeId locked row)
    (claimed (env.uuid4 s.drawn) claimedBy (now + max 1 claimTtlSeconds) now)

/-- `_raise_stale_claim` -/
def staleClaim (deliveryId : String) : AppError where
  statusCode := 409
  component := "email_delivery_outbox"
  code := "email_delivery_outbox_stale_claim"
  message := "Email delivery claim is no longer current"
  details := [("delivery_id", deliveryId)]

/-- An update of the row whose claim the caller holds. -/
def markWhere (s : Outbox) (deliveryId claimToken : String) (set : Delivery → Delivery) :
    Except AppError Delivery × Outbox :=
  let r := s.updateWhere deliveryId
    (fun row => row.metadata.submissionStatus == some .processing &&
      row.metadata.claimToken == some claimToken) set
  (match r.1 with
    | none => .error (staleClaim deliveryId)
    | some row => .ok row, r.2)

def sentRow (providerMessageId : Option String) (now : ℤ) (row : Delivery) : Delivery :=
  { row with
    status := .sent
    sentAt := some now
    providerMessageId := providerMessageId
    errorMessage := none
    metadata :=
      { row.metadata with
        submissionStatus := some .sent
        providerSubmissionStatus := some "accepted"
        providerDeliveryStatus := some "pending"
        providerStatusCheckedAt := some now
        providerEventAt := none
        providerStatusSource := some "provider_response"
        claimToken := none
        claimExpiresAt := none
        claimedBy := none
        safeFailureCategory := none
        lastEventAt := some now } }

def markSent (s : Outbox) (deliveryId claimToken : String) (providerMessageId : Option String)
    (now : ℤ) : Except AppError Delivery × Outbox :=
  s.markWhere deliveryId claimToken (sentRow providerMessageId now)

def retryRow (availableAt : ℤ) (errorMessage : Option String) (category : String)
    (providerMessageId : Option String) (now : ℤ) (row : Delivery) : Delivery :=
  let left := decide (row.metadata.attempts < row.metadata.allowed)
  { row with
    status := if left then .draft else .failed
    providerMessageId := providerMessageId.or row.providerMessageId
    errorMessage := errorMessage
    metadata :=
      { row.metadata with
        submissionStatus := some (if left then .retryPending else .failed)
        availableAt := some availableAt
        claimToken := none
        claimExpiresAt := none
        claimedBy := none
        safeFailureCategory := some category
        lastEventAt := some now } }

def markRetryPending (env : OutboxEnv) (s : Outbox) (deliveryId claimToken : String)
    (availableAt : ℤ) (errorCode errorMessage providerMessageId : Option String) (now : ℤ) :
    Except AppError Delivery × Outbox :=
  s.markWhere deliveryId claimToken
    (retryRow availableAt (safeError env errorMessage) (normalizeErrorCode errorCode)
      providerMessageId now)

/-- What `mark_failed` and `mark_cancelled` write. -/
def closedRow (status : SubmissionStatus) (errorMessage : Option String) (category : String)
    (providerMessageId : Option String) (now : ℤ) (row : Delivery) : Delivery :=
  { row with
    status := .failed
    providerMessageId := providerMessageId.or row.providerMessageId
    errorMessage := errorMessage
    metadata :=
      { row.metadata with
        submissionStatus := some status
        claimToken := none
        claimExpiresAt := none
        claimedBy := none
        safeFailureCategory := some category
        lastEventAt := some now } }

def markFailed (env : OutboxEnv) (s : Outbox) (deliveryId claimToken : String)
    (errorCode errorMessage providerMessageId : Option String) (now : ℤ) :
    Except AppError Delivery × Outbox :=
  s.markWhere deliveryId claimToken
    (closedRow .failed (safeError env errorMessage) (normalizeErrorCode errorCode)
      providerMessageId now)

def markCancelled (env : OutboxEnv) (s : Outbox) (deliveryId claimToken : String)
    (errorCode errorMessage : Option String) (now : ℤ) : Except AppError Delivery × Outbox :=
  s.markWhere deliveryId claimToken
    (closedRow .cancelled (safeError env errorMessage) (normalizeErrorCode errorCode) none now)

end Outbox
end QuantAgent.Email
