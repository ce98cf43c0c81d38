import QuantAgent.Email.Outbox

namespace QuantAgent.Email
set_option autoImplicit true

inductive OutboxAction where
  | createOrGetDelivery (request : EmailDeliveryCreateRequest) (createdAt now : ℤ)
  | requeueDelivery (deliveryId : String) (recipientEmail : Option String)
      (payloadJson : Option EmailPayload) (cooldownSeconds now : ℤ)
  | releaseExpiredClaim (now : ℤ) (deliveryScopeId : Option String) (locked : List String)
  | claimNextDelivery (claimedBy : String) (claimTtlSeconds now : ℤ)
      (deliveryScopeId : Option String) (locked : List String)
  | markSent (deliveryId claimToken : String) (providerMessageId : Option String) (now : ℤ)
  | markRetryPending (deliveryId claimToken : String) (availableAt : ℤ)
      (errorCode errorMessage providerMessageId : Option String) (now : ℤ)
  | markFailed (deliveryId claimToken : String)
      (errorCode errorMessage providerMessageId : Option String) (now : ℤ)
  | markCancelled (deliveryId claimToken : String) (errorCode errorMessage : Option String) (now : ℤ)

namespace OutboxAction

/-- The delivery and the claim that a `mark_*` call names. -/
def marks : OutboxAction → Option (String × String)
  | markSent deliveryId claimToken _ _ => some (deliveryId, claimToken)
  | markRetryPending deliveryId claimToken _ _ _ _ _ => some (deliveryId, claimToken)
  | markFailed deliveryId claimToken _ _ _ _ => some (deliveryId, claimToken)
  | markCancelled deliveryId claimToken _ _ _ => some (deliveryId, claimToken)
  | _ => none

def isClaim : OutboxAction → Bool
  | claimNextDelivery .. => true
  | _ => false

/-- The delivery is queued: for the first time or again. -/
def queues : OutboxAction → Bool
  | createOrGetDelivery .. => true
  | requeueDelivery .. => true
  | _ => false

def Valid : OutboxAction → Prop
  | createOrGetDelivery request _ _ => 1 ≤ request.maxAttempts
  | _ => True

end OutboxAction

namespace Outbox

/-- The row a statement has written, if any, and the outbox after it. -/
def exec (env : OutboxEnv) (s : Outbox) : OutboxAction → Option Delivery × Outbox
  | .createOrGetDelivery request createdAt now =>
    let r := s.createOrGetDelivery env request createdAt now
    (if r.1.2 then some r.1.1 else none, r.2)
  | .requeueDelivery deliveryId recipientEmail payloadJson cooldownSeconds now =>
    s.requeueDelivery deliveryId recipientEmail payloadJson cooldownSeconds now
  | .releaseExpiredClaim now deliveryScopeId locked => s.releaseExpiredClaim now deliveryScopeId locked
  | .claimNextDelivery claimedBy claimTtlSeconds now deliveryScopeId locked =>
    s.claimNextDelivery env claimedBy claimTtlSeconds now deliveryScopeId locked
  | .markSent deliveryId claimToken providerMessageId now =>
    let r := s.markSent deliveryId claimToken providerMessageId now
    (r.1.toOption, r.2)
  | .markRetryPending deliveryId claimToken availableAt errorCode errorMessage providerMessageId now =>
    let r := s.markRetryPending env deliveryId claimToken availableAt errorCode errorMessage
      providerMessageId now
    (r.1.toOption, r.2)
  | .markFailed deliveryId claimToken errorCode errorMessage providerMessageId now =>
    let r := s.markFailed env deliveryId claimToken errorCode errorMessage providerMessageId now
    (r.1.toOption, r.2)
  | .markCancelled deliveryId claimToken errorCode errorMessage now =>
    let r := s.markCancelled env deliveryId claimToken errorCode errorMessage now
    (r.1.toOption, r.2)

/-- The rows are under their own ids. -/
def Keyed (s : Outbox) : Prop := ∀ id row, s.rows.get? id = some row → row.deliveryId = id

/-- What a statement writes: a new row, or another version of the row `old`. -/
inductive Wrote (env : OutboxEnv) (s : Outbox) : OutboxAction → Option Delivery → Delivery → Prop
  | created : Wrote env s (.createOrGetDelivery request createdAt now) none
      (createdRow env request createdAt now)
  | requeued (old : Delivery) (h : requeueable old) :
      Wrote env s (.requeueDelivery old.deliveryId recipientEmail payloadJson cooldownSeconds now)
        (some old) (requeued recipientEmail payloadJson now old)
  | released (old : Delivery) (h : old.metadata.submissionStatus = some .processing) :
      Wrote env s (.releaseExpiredClaim now deliveryScopeId locked) (some old) (released now old)
  | claimed (old : Delivery) (claimExpiresAt : ℤ)
      (h : old.metadata.submissionStatus = some .pending ∨
        old.metadata.submissionStatus = some .retryPending)
      (hleft : old.metadata.attempts < old.metadata.allowed) :
      Wrote env s (.claimNextDelivery claimedBy claimTtlSeconds now deliveryScopeId locked) (some old)
        (claimed (env.uuid4 s.drawn) claimedBy claimExpiresAt now old)
  | sent (old : Delivery) (h : old.metadata.submissionStatus = some .processing)
      (ht : old.metadata.claimToken = some claimToken) :
      Wrote env s (.markSent old.deliveryId claimToken providerMessageId now) (some old)
        (sentRow providerMessageId now old)
  | retried (old : Delivery) (text : Option String) (category : String)
      (h : old.metadata.submissionStatus = some .processing)
      (ht : old.metadata.claimToken = some claimToken) :
      Wrote env s (.markRetryPending old.deliveryId claimToken availableAt errorCode errorMessage
        providerMessageId now) (some old) (retryRow availableAt text category providerMessageId now old)
  | failed (old : Delivery) (text : Option String) (category : String)
      (h : old.metadata.submissionStatus = some .processing)
      (ht : old.metadata.claimToken = some claimToken) :
      Wrote env s (.markFailed old.deliveryId claimToken errorCode errorMessage providerMessageId now)
        (some old) (closedRow .failed text category providerMessageId now old)
  | cancelled (old : Delivery) (text : Option String) (category : String)
      (h : old.metadata.submissionStatus = some .processing)
      (ht : old.metadata.claimToken = some claimToken) :
      Wrote env s (.markCancelled old.deliveryId claimToken errorCode errorMessage now) (some old)
        (closedRow .cancelled text category none now old)

/-- The two outcomes of a statement: no row and no change, or one row written. -/
structure Wrote.In (env : OutboxEnv) (s : Outbox) (a : OutboxAction) (row : Delivery) (s' : Outbox) :
    Prop where
  rows : s'.rows = s.rows.insert row.deliveryId row
  wrote : Wrote env s a (s.rows.get? row.deliveryId) row

theorem updateWhere_cases {s s' : Outbox} {id : String} {guard : Delivery → Bool}
    {set : Delivery → Delivery} (h : s.updateWhere id guard set = (r, s')) :
    r = none ∧ s' = s ∨ ∃ old, s.rows.get? id = some old ∧ guard old ∧ r = some (set old) ∧
      s' = { s with rows := s.rows.insert id (set old) } := by
  unfold updateWhere at h
  split at h
  · obtain ⟨rfl, rfl⟩ := Prod.mk.inj h
    exact .inl ⟨rfl, rfl⟩
  · rename_i old hold
    split at h
    · rename_i hguard
      obtain ⟨rfl, rfl⟩ := Prod.mk.inj h
      exact .inr ⟨old, hold, hguard, rfl, rfl⟩
    · obtain ⟨rfl, rfl⟩ := Prod.mk.inj h
      exact .inl ⟨rfl, rfl⟩

theorem updateFirst_cases {s s' : Outbox} {lt : Delivery → Delivery → Bool} {guard : Delivery → Bool}
    {set : Delivery → Delivery} (hkeyed : s.Keyed) (h : s.updateFirst lt guard set = (r, s')) :
    r = none ∧ s' = s ∨ ∃ old, s.rows.get? old.deliveryId = some old ∧ guard old ∧ r = some (set old) ∧
      s' = { s with rows := s.rows.insert old.deliveryId (set old) } := by
  unfold updateFirst at h
  split at h
  · obtain ⟨rfl, rfl⟩ := Prod.mk.inj h
    exact .inl ⟨rfl, rfl⟩
  · rename_i old hold
    obtain ⟨rfl, rfl⟩ := Prod.mk.inj h
    have hmem := (mem_pySorted lt).mp (List.mem_of_head? hold)
    obtain ⟨hvalue, hguard⟩ := List.mem_filter.mp hmem
    obtain ⟨⟨id, _⟩, hentry, rfl⟩ := List.mem_map.mp hvalue
    have hget := Dict.get?_of_entry_mem hentry
    obtain rfl := hkeyed _ _ hget
    exact .inr ⟨_, hget, hguard, rfl, rfl⟩

/-- A `mark_*` call writes the row whose claim it holds, or nothing. -/
theorem markWhere_cases {s : Outbox} {id : String} {set : Delivery → Delivery} (hkeyed : s.Keyed)
    (hid : ∀ old, (set old).deliveryId = old.deliveryId)
    (hwrote : ∀ old : Delivery, old.deliveryId = id → old.metadata.submissionStatus = some .processing →
      old.metadata.claimToken = some claimToken → Wrote env s a (some old) (set old)) :
    (s.markWhere id claimToken set).2.drawn = s.drawn ∧
      ((s.markWhere id claimToken set).1.toOption = none ∧
          (s.markWhere id claimToken set).2.rows = s.rows ∨
        ∃ row, (s.markWhere id claimToken set).1.toOption = some row ∧
          Wrote.In env s a row (s.markWhere id claimToken set).2) := by
  obtain ⟨r, s', h⟩ : ∃ r s', s.updateWhere id (fun row =>
      row.metadata.submissionStatus == some .processing &&
        row.metadata.claimToken == some claimToken) set = (r, s') := ⟨_, _, rfl⟩
  simp only [markWhere, h]
  rcases updateWhere_cases h with ⟨rfl, rfl⟩ | ⟨old, hold, hguard, rfl, rfl⟩
  · exact ⟨rfl, .inl ⟨rfl, rfl⟩⟩
  · obtain rfl := hkeyed id old hold
    simp only [Bool.and_eq_true, beq_iff_eq] at hguard
    refine ⟨rfl, .inr ⟨_, rfl, by rw [hid], ?_⟩⟩
    rw [hid, hold]
    exact hwrote old rfl hguard.1 hguard.2

theorem exec_cases {s s' : Outbox} (hkeyed : s.Keyed) (h : s.exec env a = (r, s')) :
    (s'.drawn = if a.isClaim then s.drawn + 1 else s.drawn) ∧
      (r = none ∧ s'.rows = s.rows ∨ ∃ row, r = some row ∧ Wrote.In env s a row s') := by
  cases a with
  | createOrGetDelivery request createdAt now =>
    cases hget : s.rows.get? (createdRow env request createdAt now).deliveryId with
    | some old =>
      simp only [exec, createOrGetDelivery, hget] at h
      obtain ⟨rfl, rfl⟩ := Prod.mk.inj h
      exact ⟨rfl, .inl ⟨rfl, rfl⟩⟩
    | none =>
      simp only [exec, createOrGetDelivery, hget] at h
      obtain ⟨rfl, rfl⟩ := Prod.mk.inj h
      exact ⟨rfl, .inr ⟨_, rfl, rfl, hget ▸ .created⟩⟩
  | requeueDelivery deliveryId recipientEmail payloadJson cooldownSeconds now =>
    rcases updateWhere_cases h with ⟨rfl, rfl⟩ | ⟨old, hold, hguard, rfl, rfl⟩
    · exact ⟨rfl, .inl ⟨rfl, rfl⟩⟩
    · obtain rfl := hkeyed _ _ hold
      refine ⟨rfl, .inr ⟨_, rfl, rfl, ?_⟩⟩
      change Wrote env s _ (s.rows.get? old.deliveryId) _
      rw [hold]
      exact .requeued old (Bool.and_eq_true_iff.mp hguard).1
  | releaseExpiredClaim now deliveryScopeId locked =>
    rcases updateFirst_cases hkeyed h with ⟨rfl, rfl⟩ | ⟨old, hold, hguard, rfl, rfl⟩
    · exact ⟨rfl, .inl ⟨rfl, rfl⟩⟩
    · refine ⟨rfl, .inr ⟨_, rfl, rfl, ?_⟩⟩
      change Wrote env s _ (s.rows.get? old.deliveryId) _
      simp only [Bool.and_eq_true, beq_iff_eq] at hguard
      rw [hold]
      exact .released old hguard.1.1.2
  | claimNextDelivery claimedBy claimTtlSeconds now deliveryScopeId locked =>
    have hkeyed' : Keyed { s with drawn := s.drawn + 1 } := hkeyed
    simp only [exec, claimNextDelivery] at h
    rcases updateFirst_cases hkeyed' h with ⟨rfl, rfl⟩ | ⟨old, hold, hguard, rfl, rfl⟩
    · exact ⟨rfl, .inl ⟨rfl, rfl⟩⟩
    · have hold : s.rows.get? old.deliveryId = some old := hold
      refine ⟨rfl, .inr ⟨_, rfl, rfl, ?_⟩⟩
      change Wrote env s _ (s.rows.get? old.deliveryId) _
      simp only [Bool.and_eq_true, Bool.or_eq_true, beq_iff_eq, decide_eq_true_eq] at hguard
      rw [hold]
      exact .claimed old _ hguard.1.1.1.2 hguard.1.2
  | markSent deliveryId claimToken providerMessageId now =>
    obtain ⟨rfl, rfl⟩ := Prod.mk.inj h
    refine markWhere_cases hkeyed (fun _ => rfl) fun old hid hp ht => ?_
    rw [← hid]
    exact .sent old hp ht
  | markRetryPending deliveryId claimToken availableAt errorCode errorMessage providerMessageId now =>
    obtain ⟨rfl, rfl⟩ := Prod.mk.inj h
    refine markWhere_cases hkeyed (fun _ => rfl) fun old hid hp ht => ?_
    rw [← hid]
    exact .retried old _ _ hp ht
  | markFailed deliveryId claimToken errorCode errorMessage providerMessageId now =>
    obtain ⟨rfl, rfl⟩ := Prod.mk.inj h
    refine markWhere_cases hkeyed (fun _ => rfl) fun old hid hp ht => ?_
    rw [← hid]
    exact .failed old _ _ hp ht
  | markCancelled deliveryId claimToken errorCode errorMessage now =>
    obtain ⟨rfl, rfl⟩ := Prod.mk.inj h
    refine markWhere_cases hkeyed (fun _ => rfl) fun old hid hp ht => ?_
    rw [← hid]
    exact .cancelled old _ _ hp ht

end Outbox

/-- The column that goes with a submission status. -/
def SubmissionStatus.column : SubmissionStatus → DbStatus
  | pending | retryPending | processing => .draft
  | sent => .sent
  | failed | cancelled => .failed

def SubmissionStatus.closed : SubmissionStatus → Bool
  | sent | failed | cancelled => true
  | _ => false

/-- The two statuses agree, and `claims` of the allowed attempts are used, not all if one is due. -/
structure Delivery.Consistent (row : Delivery) (claims : ℕ) : Prop where
  status : ∃ status, row.metadata.submissionStatus = some status ∧ row.status = status.column ∧
    (status = .pending ∨ status = .retryPending → row.metadata.attempts < row.metadata.allowed)
  attempts : row.metadata.attemptCount = some (claims : ℤ)
  allowed : ∃ m, row.metadata.maxAttempts = some m ∧ (claims : ℤ) ≤ m ∧ 1 ≤ m

/-- What the action does to the number of claims since the delivery was queued. -/
def OutboxAction.claims (a : OutboxAction) (n : ℕ) : ℕ :=
  if a.queues then 0 else if a.isClaim then n + 1 else n

namespace Outbox

theorem Wrote.consistent (h : Wrote env s a old row) (hvalid : a.Valid)
    (hold : ∀ r, old = some r → r.Consistent n) : row.Consistent (a.claims n) := by
  cases h with
  | created =>
    have hpositive : (0 : ℤ) < _ := Int.lt_of_lt_of_le Int.zero_lt_one hvalid
    exact ⟨⟨.pending, rfl, rfl, fun _ => hpositive⟩, rfl, _, rfl, hpositive.le, hvalid⟩
  | requeued old hclosed =>
    obtain ⟨-, -, m, hm, hle, hone⟩ := hold _ rfl
    have hallowed : old.metadata.allowed = m := by rw [Metadata.allowed, hm]; rfl
    have hzero : (0 : ℤ) ≤ m := by omega
    refine ⟨⟨.pending, rfl, rfl, fun _ => ?_⟩, rfl, m, hm, hzero, hone⟩
    change 0 < old.metadata.allowed
    omega
  | released old hprocessing =>
    obtain ⟨-, hattempts, m, hm, hle, hone⟩ := hold _ rfl
    by_cases hspent : old.metadata.allowed ≤ old.metadata.attempts
    · refine ⟨⟨.failed, ?_, ?_, nofun⟩, hattempts, m, hm, hle, hone⟩
      · simp only [Outbox.released, hspent, decide_true, if_true]
      · simp only [Outbox.released, hspent, decide_true, if_true, SubmissionStatus.column]
    · refine ⟨⟨.retryPending, ?_, ?_, fun _ => not_le.mp hspent⟩, hattempts, m, hm, hle, hone⟩
      · simp only [Outbox.released, hspent, decide_false]
        rfl
      · simp only [Outbox.released, hspent, decide_false]
        rfl
  | claimed old claimExpiresAt hdue hleft =>
    obtain ⟨⟨status, hstatus, hcolumn, -⟩, hattempts, m, hm, hle, hone⟩ := hold _ rfl
    have hused : old.metadata.attempts = n := by rw [Metadata.attempts, hattempts]; rfl
    have hallowed : old.metadata.allowed = m := by rw [Metadata.allowed, hm]; rfl
    have hnext : ((n + 1 : ℕ) : ℤ) ≤ m := by omega
    refine ⟨⟨.processing, rfl, ?_, nofun⟩, ?_, m, hm, hnext, hone⟩
    · rcases hdue with hdue | hdue <;> (cases hstatus.symm.trans hdue; exact hcolumn)
    · change some (old.metadata.attempts + 1) = some ((n + 1 : ℕ) : ℤ)
      rw [hused]
      rfl
  | sent old hprocessing ht =>
    obtain ⟨-, hattempts, hallowed⟩ := hold _ rfl
    exact ⟨⟨.sent, rfl, rfl, nofun⟩, hattempts, hallowed⟩
  | retried old text category hprocessing ht =>
    obtain ⟨-, hattempts, hallowed⟩ := hold _ rfl
    by_cases hleft : old.metadata.attempts < old.metadata.allowed
    · refine ⟨⟨.retryPending, ?_, ?_, fun _ => hleft⟩, hattempts, hallowed⟩
      · simp only [Outbox.retryRow, hleft, decide_true, if_true]
      · simp only [Outbox.retryRow, hleft, decide_true, if_true, SubmissionStatus.column]
    · refine ⟨⟨.failed, ?_, ?_, nofun⟩, hattempts, hallowed⟩
      · simp only [Outbox.retryRow, hleft, decide_false]
        rfl
      · simp only [Outbox.retryRow, hleft, decide_false]
        rfl
  | failed old text category hprocessing ht =>
    obtain ⟨-, hattempts, hallowed⟩ := hold _ rfl
    exact ⟨⟨.failed, rfl, rfl, nofun⟩, hattempts, hallowed⟩
  | cancelled old text category hprocessing ht =>
    obtain ⟨-, hattempts, hallowed⟩ := hold _ rfl
    exact ⟨⟨.cancelled, rfl, rfl, nofun⟩, hattempts, hallowed⟩

/-- Only a claim leaves a row in processing, under the token it has drawn. -/
theorem Wrote.processing (h : Wrote env s a old row)
    (hp : row.metadata.submissionStatus = some .processing) : a.isClaim := by
  cases h with
  | created => cases hp
  | requeued old hclosed => cases hp
  | released old hprocessing =>
    simp only [Outbox.released, Option.some.injEq] at hp
    split at hp <;> cases hp
  | claimed old claimExpiresAt hdue hleft => rfl
  | sent old hprocessing ht => cases hp
  | retried old text category hprocessing ht =>
    simp only [Outbox.retryRow, Option.some.injEq] at hp
    split at hp <;> cases hp
  | failed old text category hprocessing ht => cases hp
  | cancelled old text category hprocessing ht => cases hp

theorem Wrote.token (h : Wrote env s a old row) (hclaim : a.isClaim) :
    row.metadata.claimToken = some (env.uuid4 s.drawn) := by
  cases h with
  | claimed old claimExpiresAt hdue hleft => rfl
  | _ => cases hclaim

/-- A `mark_*` call writes the row it names while that row is in processing under its token. -/
theorem Wrote.marked {id token : String} (h : Wrote env s a old row) (hmarks : a.marks = some (id, token)) :
    row.deliveryId = id ∧ ∃ r, old = some r ∧ r.metadata.submissionStatus = some .processing ∧
      r.metadata.claimToken = some token := by
  cases h with
  | sent old hprocessing ht =>
    cases hmarks
    exact ⟨rfl, old, rfl, hprocessing, ht⟩
  | retried old text category hprocessing ht =>
    cases hmarks
    exact ⟨rfl, old, rfl, hprocessing, ht⟩
  | failed old text category hprocessing ht =>
    cases hmarks
    exact ⟨rfl, old, rfl, hprocessing, ht⟩
  | cancelled old text category hprocessing ht =>
    cases hmarks
    exact ⟨rfl, old, rfl, hprocessing, ht⟩
  | _ => cases hmarks

/-- A closed row is only written by a requeue of it. -/
theorem Wrote.reopened (h : Wrote env s a (some old) row)
    (hclosed : old.metadata.submissionStatus = some status) (hc : status.closed) :
    ∃ recipientEmail payloadJson cooldownSeconds now,
      a = .requeueDelivery old.deliveryId recipientEmail payloadJson cooldownSeconds now := by
  have hopen : ∀ open' : SubmissionStatus, open'.closed = false →
      old.metadata.submissionStatus ≠ some open' := by
    intro open' hopen heq
    rw [hclosed] at heq
    cases heq
    rw [hc] at hopen
    cases hopen
  cases h with
  | requeued _ _ => exact ⟨_, _, _, _, rfl⟩
  | claimed _ _ hdue _ =>
    rcases hdue with hdue | hdue
    · exact absurd hdue (hopen _ rfl)
    · exact absurd hdue (hopen _ rfl)
  | released _ hprocessing => exact absurd hprocessing (hopen _ rfl)
  | sent _ hprocessing _ => exact absurd hprocessing (hopen _ rfl)
  | retried _ _ _ hprocessing _ => exact absurd hprocessing (hopen _ rfl)
  | failed _ _ _ hprocessing _ => exact absurd hprocessing (hopen _ rfl)
  | cancelled _ _ _ hprocessing _ => exact absurd hprocessing (hopen _ rfl)

end Outbox

/-- A statement that wrote a row, with the row it wrote. -/
abbrev OutboxEvent := OutboxAction × Delivery

/-- The outbox and what was written so far, the latest first. -/
structure OutboxRun where
  outbox : Outbox
  log : List OutboxEvent

/-- The claims of a delivery since it was last queued. -/
def claimsSinceQueued (id : String) : List OutboxEvent → ℕ
  | [] => 0
  | (a, row) :: log =>
    if row.deliveryId = id then a.claims (claimsSinceQueued id log) else claimsSinceQueued id log

namespace OutboxRun

def step (env : OutboxEnv) (r : OutboxRun) (a : OutboxAction) : OutboxRun :=
  match r.outbox.exec env a with
  | (some row, s) => ⟨s, (a, row) :: r.log⟩
  | (none, s) => ⟨s, r.log⟩

/-- Statements of any number of workers, in the order in which they took effect, on an empty table. -/
def exec (env : OutboxEnv) (acts : List OutboxAction) : OutboxRun :=
  acts.foldl (step env) ⟨⟨Dict.empty, 0⟩, []⟩

/-- The rows and the log tell the same story. -/
structure Inv (env : OutboxEnv) (r : OutboxRun) : Prop where
  keyed : r.outbox.Keyed
  consistent : ∀ id row, r.outbox.rows.get? id = some row →
    row.Consistent (claimsSinceQueued id r.log)
  latest : ∀ id row, r.outbox.rows.get? id = some row → ∃ newer a older,
    r.log = newer ++ (a, row) :: older ∧ (∀ e ∈ newer, e.2.deliveryId ≠ id) ∧
      (row.metadata.submissionStatus = some .processing → a.isClaim)
  drawn : ∀ e ∈ r.log, e.1.isClaim →
    ∃ n < r.outbox.drawn, e.2.metadata.claimToken = some (env.uuid4 n)
  distinct : r.log.Pairwise fun e e' => e.1.isClaim → e'.1.isClaim →
    e.2.metadata.claimToken ≠ e'.2.metadata.claimToken

theorem Inv.step (henv : Function.Injective env.uuid4) (h : Inv env r) (ha : a.Valid) :
    Inv env (r.step env a) := by
  obtain ⟨reply, s', hexec⟩ : ∃ reply s', r.outbox.exec env a = (reply, s') := ⟨_, _, rfl⟩
  obtain ⟨hdrawn, hcases⟩ := Outbox.exec_cases h.keyed hexec
  have hgrow : r.outbox.drawn ≤ s'.drawn := by
    rw [hdrawn]
    split <;> omega
  have hbefore : ∀ e ∈ r.log, e.1.isClaim →
      ∃ n < s'.drawn, e.2.metadata.claimToken = some (env.uuid4 n) := by
    intro e he hclaim
    obtain ⟨n, hn, htoken⟩ := h.drawn e he hclaim
    exact ⟨n, hn.trans_le hgrow, htoken⟩
  rcases hcases with ⟨rfl, hrows⟩ | ⟨row, rfl, hrows, hwrote⟩
  · simp only [OutboxRun.step, hexec]
    refine ⟨fun id row hget => ?_, fun id row hget => ?_, fun id row hget => ?_, hbefore, h.distinct⟩
    · exact h.keyed id row (hrows ▸ hget)
    · exact h.consistent id row (hrows ▸ hget)
    · exact h.latest id row (hrows ▸ hget)
  · simp only [OutboxRun.step, hexec]
    have hget : ∀ id row', s'.rows.get? id = some row' →
        id = row.deliveryId ∧ row' = row ∨ id ≠ row.deliveryId ∧ r.outbox.rows.get? id = some row' := by
      intro id row' hrow'
      rw [hrows, Dict.get?_insert] at hrow'
      split at hrow'
      · rename_i hid
        exact .inl ⟨hid, (Option.some.inj hrow').symm⟩
      · rename_i hid
        exact .inr ⟨hid, hrow'⟩
    refine ⟨fun id row' hrow' => ?_, fun id row' hrow' => ?_, fun id row' hrow' => ?_,
      fun e he hclaim => ?_, List.pairwise_cons.mpr ⟨fun e he hclaim hclaim' => ?_, h.distinct⟩⟩
    · rcases hget id row' hrow' with ⟨rfl, rfl⟩ | ⟨-, hold⟩
      · rfl
      · exact h.keyed id row' hold
    · rcases hget id row' hrow' with ⟨rfl, rfl⟩ | ⟨hid, hold⟩
      · rw [claimsSinceQueued, if_pos rfl]
        exact hwrote.consistent ha fun old hold => h.consistent _ old hold
      · rw [claimsSinceQueued, if_neg (Ne.symm hid)]
        exact h.consistent id row' hold
    · rcases hget id row' hrow' with ⟨rfl, rfl⟩ | ⟨hid, hold⟩
      · exact ⟨[], a, r.log, rfl, List.forall_mem_nil _, hwrote.processing⟩
      · obtain ⟨newer, a', older, hlog, hnewer, hclaim⟩ := h.latest id row' hold
        refine ⟨(a, row) :: newer, a', older, congrArg _ hlog, ?_, hclaim⟩
        exact List.forall_mem_cons.mpr ⟨Ne.symm hid, hnewer⟩
    · rcases List.mem_cons.mp he with rfl | he
      · refine ⟨r.outbox.drawn, ?_, hwrote.token hclaim⟩
        change a.isClaim at hclaim
        rw [hdrawn, if_pos hclaim]
        exact Nat.lt_succ_self _
      · exact hbefore e he hclaim
    · obtain ⟨n, hn, htoken⟩ := h.drawn e he hclaim'
      rw [hwrote.token hclaim, htoken]
      intro heq
      exact absurd (henv (Option.some.inj heq)) (by omega)

theorem Inv.exec (henv : Function.Injective env.uuid4) {acts : List OutboxAction}
    (hacts : ∀ a ∈ acts, a.Valid) : Inv env (OutboxRun.exec env acts) := by
  have hrun : ∀ r, Inv env r → Inv env (acts.foldl (OutboxRun.step env) r) := by
    induction acts with
    | nil => exact fun r h => h
    | cons a acts ih =>
      intro r h
      exact ih (fun b hb => hacts b (List.mem_cons_of_mem a hb)) _
        (h.step henv (hacts a (List.mem_cons_self ..)))
  have hempty : ∀ id row, (Dict.empty : Dict String Delivery).get? id ≠ some row := fun _ _ h => nomatch h
  exact hrun _ ⟨fun id row h => absurd h (hempty id row), fun id row h => absurd h (hempty id row),
    fun id row h => absurd h (hempty id row), List.forall_mem_nil _, .nil⟩

/-- The safety of the outbox, over what was written so far and what may be written next. -/
structure Safe (env : OutboxEnv) (r : OutboxRun) : Prop where
  attempts : ∀ id row, r.outbox.rows.get? id = some row →
    row.metadata.attemptCount = some (claimsSinceQueued id r.log : ℤ) ∧
      ∃ m, row.metadata.maxAttempts = some m ∧ (claimsSinceQueued id r.log : ℤ) ≤ m
  /-- A `mark_*` call that writes holds the claim that was the last thing written of its delivery. -/
  holder : ∀ a id token row, a.marks = some (id, token) → (r.outbox.exec env a).1 = some row →
    row.deliveryId = id ∧ ∃ newer claim claimed older, r.log = newer ++ (claim, claimed) :: older ∧
      claim.isClaim ∧ r.outbox.rows.get? id = some claimed ∧
      claimed.metadata.claimToken = some token ∧ (∀ e ∈ newer, e.2.deliveryId ≠ id) ∧
      ∀ e ∈ newer ++ older, e.1.isClaim → e.2.metadata.claimToken ≠ some token
  written : ∀ a id, (r.outbox.exec env a).1.all (fun row => row.deliveryId ≠ id) →
    (r.outbox.exec env a).2.rows.get? id = r.outbox.rows.get? id
  closed : ∀ a id row status, r.outbox.rows.get? id = some row →
    row.metadata.submissionStatus = some status → status.closed →
    (∀ recipientEmail payloadJson cooldownSeconds now,
      a ≠ .requeueDelivery id recipientEmail payloadJson cooldownSeconds now) →
    (r.outbox.exec env a).2.rows.get? id = some row
  agree : ∀ id row, r.outbox.rows.get? id = some row →
    ∃ status, row.metadata.submissionStatus = some status ∧ row.status = status.column ∧
      (status = .pending ∨ status = .retryPending → row.metadata.attempts < row.metadata.allowed)

theorem outbox_safe (henv : Function.Injective env.uuid4) {acts : List OutboxAction}
    (hacts : ∀ a ∈ acts, a.Valid) : Safe env (OutboxRun.exec env acts) := by
  have h := Inv.exec henv hacts
  generalize OutboxRun.exec env acts = r at h
  have hcases : ∀ a, (r.outbox.exec env a).1 = none ∧
      (r.outbox.exec env a).2.rows = r.outbox.rows ∨ ∃ row, (r.outbox.exec env a).1 = some row ∧
        Outbox.Wrote.In env r.outbox a row (r.outbox.exec env a).2 :=
    fun a => (Outbox.exec_cases h.keyed rfl).2
  refine ⟨fun id row hget => ?_, fun a id token row hmarks hrow => ?_, fun a id hother => ?_,
    fun a id row status hget hstatus hclosed hrequeue => ?_, fun id row hget => ?_⟩
  · obtain ⟨-, hattempts, m, hm, hle, -⟩ := h.consistent id row hget
    exact ⟨hattempts, m, hm, hle⟩
  · rcases hcases a with ⟨hnone, -⟩ | ⟨row', hrow', hwrote⟩
    · rw [hnone] at hrow
      cases hrow
    · obtain rfl := Option.some.inj (hrow'.symm.trans hrow)
      obtain ⟨rfl, claimed, hget, hprocessing, htoken⟩ := hwrote.wrote.marked hmarks
      obtain ⟨newer, claim, older, hlog, hnewer, hclaim⟩ := h.latest _ claimed hget
      refine ⟨rfl, newer, claim, claimed, older, hlog, hclaim hprocessing, hget, htoken, hnewer, ?_⟩
      intro e he hclaim' htoken'
      have hdistinct := h.distinct
      rw [hlog, List.pairwise_append, List.pairwise_cons] at hdistinct
      obtain ⟨-, ⟨holder, -⟩, hacross⟩ := hdistinct
      rcases List.mem_append.mp he with he | he
      · exact hacross e he _ (List.mem_cons_self ..) hclaim' (hclaim hprocessing)
          (htoken'.trans htoken.symm)
      · exact holder e he (hclaim hprocessing) hclaim' (htoken.trans htoken'.symm)
  · rcases hcases a with ⟨-, hrows⟩ | ⟨row, hrow, hwrote⟩
    · rw [hrows]
    · rw [hrow] at hother
      have hne : row.deliveryId ≠ id := of_decide_eq_true hother
      rw [hwrote.rows, Dict.get?_insert, if_neg (Ne.symm hne)]
  · rcases hcases a with ⟨-, hrows⟩ | ⟨row', -, hwrote⟩
    · rw [hrows, hget]
    · by_cases hid : id = row'.deliveryId
      · have hwrote' := hwrote.wrote
        rw [← hid, hget] at hwrote'
        obtain ⟨recipientEmail, payloadJson, cooldownSeconds, now, rfl⟩ := hwrote'.reopened hstatus hclosed
        rw [h.keyed id row hget] at hrequeue
        exact (hrequeue _ _ _ _ rfl).elim
      · rw [hwrote.rows, Dict.get?_insert, if_neg hid, hget]
  · exact (h.consistent id row hget).status

/-- Uuids that are numbered. -/
def numberedEnv : OutboxEnv where
  uuid4 n := "00000000-0000-4000-8000-" ++ n.repr
  uuid5 name := name
  redact text := text

theorem numberedEnv_injective : Function.Injective numberedEnv.uuid4 := by
  intro m n h
  have htext : m.repr = n.repr := (String.append_right_inj "00000000-0000-4000-8000-").mp h
  have hm := digits?_toString m
  rw [Nat.toString_eq_repr, htext, ← Nat.toString_eq_repr, digits?_toString] at hm
  exact (Option.some.inj hm).symm

/-- A claim expires and is released; the worker that held it answers after the next claim. -/
def lateAnswer : List OutboxAction :=
  [.createOrGetDelivery ⟨"7", "report", "report_completed", "report_completed", "v1", "a@b.kr", "key",
      ⟨none, "text"⟩, "brevo", 2, none, none⟩ 0 0,
    .claimNextDelivery "first" 60 0 none [], .releaseExpiredClaim 60 none [],
    .claimNextDelivery "second" 60 60 none [],
    .markSent "quantagent-email:key" (numberedEnv.uuid4 0) none 61,
    .markRetryPending "quantagent-email:key" (numberedEnv.uuid4 1) 90 none none none 62]

theorem outbox_safe_lateAnswer : Safe numberedEnv (exec numberedEnv lateAnswer) := by
  refine outbox_safe numberedEnv_injective fun a ha => ?_
  fin_cases ha
  · exact (by decide : (1 : ℤ) ≤ 2)
  all_goals trivial

/-- The second claim was the last attempt: the delivery has failed, and the first answer is lost. -/
example : ((exec numberedEnv lateAnswer).outbox.rows.get? "quantagent-email:key").map
    (fun row => (row.status, row.metadata.submissionStatus, row.metadata.attemptCount)) =
      some (.failed, some .failed, some 2) := by decide +kernel

end OutboxRun
end QuantAgent.Email
