import QuantAgent.Lib.Dict
import QuantAgent.Research.DraftTokenVerify

namespace QuantAgent.Jobs
open QuantAgent.Research
set_option autoImplicit true

/-- `_CoreJobIdempotencyRegistry._requests`: the spec hash of a user's key, and its job once there is one. -/
abbrev Registry := Dict (String × String) (String × Option String)

inductive IdempotencyStatus where
  | new
  | conflict
  | pending
  | existing (jobId : String)
deriving DecidableEq

/-- The user, the client's idempotency key and the spec hash of a call of the registry. -/
structure Reservation where
  userId : String
  key : String
  specHash : String
deriving DecidableEq

namespace Reservation

def slot (r : Reservation) : String × String := (r.userId, r.key)

end Reservation

namespace Registry

/-- `_CoreJobIdempotencyRegistry.begin` -/
def begin (registry : Registry) (r : Reservation) : IdempotencyStatus × Registry :=
  match registry.get? r.slot with
  | none => (.new, registry.insert r.slot (r.specHash, none))
  | some (existingHash, jobId) =>
    if existingHash ≠ r.specHash then (.conflict, registry)
    else
      match jobId with
      | some jobId => (.existing jobId, registry)
      | none => (.pending, registry)

/-- `_CoreJobIdempotencyRegistry.complete` -/
def complete (registry : Registry) (r : Reservation) (jobId : String) : Registry :=
  if registry.get? r.slot = some (r.specHash, none) then registry.insert r.slot (r.specHash, some jobId)
  else registry

/-- `_CoreJobIdempotencyRegistry.discard` -/
def discard (registry : Registry) (r : Reservation) : Registry :=
  if registry.get? r.slot = some (r.specHash, none) then registry.erase r.slot else registry

end Registry

/-- What a callee of the endpoint raises, as far as its handlers tell it apart. -/
inductive CalleeError where
  | parseBoundAdmission (keyReused : Bool)
  | jobStoreConfiguration
  | explorationPolicyUnavailable
  /-- Any other `Exception`. -/
  | other
  /-- `asyncio.CancelledError`, which is no `Exception`. -/
  | cancelled
deriving DecidableEq

inductive ConflictReason where
  | idempotencyKeyReused
  | idempotencyInProgress
deriving DecidableEq

/-- How a call ends. -/
inductive CallOutcome where
  | idempotencyConflict (reason : ConflictReason)
  | draftConflict (code : DraftCode)
  | draftReplayed
  | job (jobId : String)
  /-- An `HTTPException` with status 503. -/
  | unavailable
  | verifyRaised (raised : Raised)
  | raised (error : CalleeError)
deriving DecidableEq

/-- A parse-bound request of a user. -/
structure ParseBoundRequest (ρ : Type) where
  reservation : Reservation
  parseToken : String
  spec : ρ

/-- How the callees answer a call until it awaits its quota: what the checks in front of the
reservation answer, `get_job`, the clock and `find_parse_bound_job`. -/
structure Answers where
  front : Option CallOutcome
  getJob : String → Except CalleeError (Option String)
  now : ℕ
  find : Except CalleeError (Option String)

/-- A call that has ended, and whether it had made the reservation. -/
structure Finished where
  reservation : Reservation
  reserved : Bool
  outcome : CallOutcome
deriving DecidableEq

section Endpoint
variable {ρ : Type} (env : SignerEnv ρ) (signer : RuleDraftSigner)

/-- The answer to a `ParseBoundAdmissionError`. -/
def admissionConflict (keyReused : Bool) : CallOutcome :=
  if keyReused then .idempotencyConflict .idempotencyKeyReused else .draftReplayed

/-- `create_analysis_job` behind its reservation, up to the quota; no outcome while it awaits that. -/
def reservedCall (registry : Registry) (request : ParseBoundRequest ρ) (answers : Answers) :
    Registry × Option CallOutcome :=
  let r := request.reservation
  if r.specHash ≠ canonicalRuleDigest env (some request.spec) then
    (registry.discard r, some (.draftConflict .draftRuleMismatch))
  else
    match verify env signer request.parseToken request.spec r.userId answers.now with
    | .error (.draftTokenValidation code) => (registry.discard r, some (.draftConflict code))
    | .error raised => (registry, some (.verifyRaised raised))
    | .ok _ =>
      match answers.find with
      | .error (.parseBoundAdmission keyReused) =>
        (registry.discard r, some (admissionConflict keyReused))
      | .error .jobStoreConfiguration => (registry.discard r, some .unavailable)
      | .error error => (registry, some (.raised error))
      | .ok (some jobId) => (registry.complete r jobId, some (.job jobId))
      | .ok none => (registry, none)

/-- `create_analysis_job` up to the quota: whether it made the reservation, and its outcome if it ended. -/
def openCall (registry : Registry) (request : ParseBoundRequest ρ) (answers : Answers) :
    Registry × Bool × Option CallOutcome :=
  match answers.front with
  | some outcome => (registry, false, some outcome)
  | none =>
    match registry.begin request.reservation with
    | (.conflict, registry) => (registry, false, some (.idempotencyConflict .idempotencyKeyReused))
    | (.pending, registry) => (registry, false, some (.idempotencyConflict .idempotencyInProgress))
    | (.existing jobId, registry) =>
      match answers.getJob jobId with
      | .ok (some jobId) => (registry, false, some (.job jobId))
      | .ok none => (registry, false, some (.idempotencyConflict .idempotencyInProgress))
      | .error error => (registry, false, some (.raised error))
    | (.new, registry) =>
      let call := reservedCall env signer registry request answers
      (call.1, true, call.2)

/-- `create_analysis_job` from the quota on: the admission is asked for once the quota is consumed. -/
def resumeCall (registry : Registry) (r : Reservation) (quota : Except CalleeError Unit)
    (admission : Except CalleeError String) : Registry × CallOutcome :=
  match quota.bind fun _ => admission with
  | .ok jobId => (registry.complete r jobId, .job jobId)
  | .error (.parseBoundAdmission keyReused) => (registry.discard r, admissionConflict keyReused)
  | .error .jobStoreConfiguration => (registry.discard r, .unavailable)
  | .error .explorationPolicyUnavailable => (registry.discard r, .unavailable)
  | .error .other => (registry.discard r, .raised .other)
  | .error .cancelled => (registry, .raised .cancelled)

/-- The registry of a process, and the calls that await their quota. -/
structure Process where
  registry : Registry
  awaiting : Dict ℕ Reservation

inductive CallAction (ρ : Type) where
  | opens (call : ℕ) (request : ParseBoundRequest ρ) (answers : Answers)
  | resumes (call : ℕ) (quota : Except CalleeError Unit) (admission : Except CalleeError String)

namespace Process

def start : Process := ⟨.empty, .empty⟩

/-- A call runs alone from one await to the next. -/
def step (s : Process) : CallAction ρ → Option (Process × Option Finished)
  | .opens call request answers =>
    if call ∈ s.awaiting then none
    else
      match openCall env signer s.registry request answers with
      | (registry, reserved, some outcome) =>
        some (⟨registry, s.awaiting⟩, some ⟨request.reservation, reserved, outcome⟩)
      | (registry, _, none) => some (⟨registry, s.awaiting.insert call request.reservation⟩, none)
  | .resumes call quota admission =>
    match s.awaiting.get? call with
    | none => none
    | some r =>
      let ended := resumeCall s.registry r quota admission
      some (⟨ended.1, s.awaiting.erase call⟩, some ⟨r, true, ended.2⟩)

/-- The process after some calls, however they took turns. -/
inductive Reachable : Process → Prop
  | start : Reachable start
  | step (h : Reachable s) (action : CallAction ρ) (hstep : s.step env signer action = some (s', ended)) :
      Reachable s'

end Process

/-- The reservation of a call that has ended is removed, or bound to the job the call answered with. -/
def Settled (registry : Registry) (ended : Finished) : Prop :=
  registry.get? ended.reservation.slot = none ∨
    ∃ jobId, ended.outcome = .job jobId ∧
      registry.get? ended.reservation.slot = some (ended.reservation.specHash, some jobId)

/-- What the callees raise has a handler: token verification raises nothing but its own error, the
durable lookup nothing but the two store errors, and the call is not cancelled while it awaits. -/
def Handled : CallAction ρ → Prop
  | .opens _ request answers =>
    request.reservation.specHash = canonicalRuleDigest env (some request.spec) →
      (∀ raised, verify env signer request.parseToken request.spec request.reservation.userId
          answers.now = .error raised → ∃ code, raised = .draftTokenValidation code) ∧
      (∀ nonce, verify env signer request.parseToken request.spec request.reservation.userId
          answers.now = .ok nonce → ∀ error, answers.find = .error error →
            error = .jobStoreConfiguration ∨ ∃ keyReused, error = .parseBoundAdmission keyReused)
  | .resumes _ quota admission =>
    quota ≠ .error .cancelled ∧ (quota = .ok () → admission ≠ .error .cancelled)

end Endpoint

namespace Registry
variable {registry : Registry} {r : Reservation}

theorem begin_new (h : registry.begin r = (.new, registry')) :
    registry.get? r.slot = none ∧ registry' = registry.insert r.slot (r.specHash, none) := by
  unfold begin at h
  split at h
  · rename_i hnone
    cases h
    exact ⟨hnone, rfl⟩
  · split at h
    · cases h
    · split at h <;> cases h

theorem begin_not_new (h : registry.begin r = (status, registry')) (hstatus : status ≠ .new) :
    registry' = registry := by
  unfold begin at h
  split at h
  · cases h
    exact absurd rfl hstatus
  · split at h
    · cases h
      rfl
    · split at h <;>
      · cases h
        rfl

theorem get?_discard_self (h : registry.get? r.slot = some (r.specHash, none)) :
    (registry.discard r).get? r.slot = none := by
  rw [discard, if_pos h, Dict.get?_erase_self]

theorem get?_complete_self (h : registry.get? r.slot = some (r.specHash, none)) (jobId : String) :
    (registry.complete r jobId).get? r.slot = some (r.specHash, some jobId) := by
  rw [complete, if_pos h, Dict.get?_insert_self]

/-- The other reservations are left alone. -/
theorem get?_discard_ne (h : slot ≠ r.slot) : (registry.discard r).get? slot = registry.get? slot := by
  unfold discard
  split
  · rw [Dict.get?_erase, if_neg h]
  · rfl

theorem get?_complete_ne (h : slot ≠ r.slot) (jobId : String) :
    (registry.complete r jobId).get? slot = registry.get? slot := by
  unfold complete
  split
  · rw [Dict.get?_insert, if_neg h]
  · rfl

end Registry

theorem not_settled {registry : Registry} {ended : Finished}
    (h : registry.get? ended.reservation.slot = some (ended.reservation.specHash, none)) :
    ¬ Settled registry ended := by
  rintro (hnone | ⟨jobId, -, hjob⟩)
  · rw [h] at hnone
    cases hnone
  · rw [h] at hjob
    cases hjob

theorem settled_discard {registry : Registry} {r : Reservation} (reserved : Bool) (outcome : CallOutcome)
    (h : registry.get? r.slot = some (r.specHash, none)) :
    Settled (registry.discard r) ⟨r, reserved, outcome⟩ := .inl (Registry.get?_discard_self h)

theorem settled_complete {registry : Registry} {r : Reservation} (reserved : Bool) (jobId : String)
    (h : registry.get? r.slot = some (r.specHash, none)) :
    Settled (registry.complete r jobId) ⟨r, reserved, .job jobId⟩ :=
  .inr ⟨jobId, rfl, Registry.get?_complete_self h jobId⟩

section Calls
variable {ρ : Type} {env : SignerEnv ρ} {signer : RuleDraftSigner} {registry : Registry}

/-- Behind the reservation a call settles it exactly when every callee's exception has a handler. -/
theorem reservedCall_settled_iff {request : ParseBoundRequest ρ} {answers : Answers}
    (hslot : registry.get? request.reservation.slot = some (request.reservation.specHash, none))
    (h : reservedCall env signer registry request answers = (registry', some outcome)) (call : ℕ) :
    Settled registry' ⟨request.reservation, true, outcome⟩ ↔
      Handled env signer (.opens call request answers) := by
  rw [reservedCall] at h
  split at h
  · rename_i hdigest
    cases h
    exact iff_of_true (settled_discard _ _ hslot) fun hsame => absurd hsame hdigest
  · rename_i hdigest
    rw [not_not] at hdigest
    cases hverify : verify env signer request.parseToken request.spec request.reservation.userId
        answers.now with
    | error raised =>
      simp only [hverify] at h
      cases raised with
      | draftTokenValidation code =>
        cases h
        refine iff_of_true (settled_discard _ _ hslot) fun _ => ⟨fun raised hraised => ?_, ?_⟩
        · rw [hverify] at hraised
          exact ⟨code, (Except.error.inj hraised).symm⟩
        · intro nonce hnonce
          rw [hverify] at hnonce
          cases hnonce
      | recursionError | typeError =>
        cases h
        refine iff_of_false (not_settled hslot) fun hhandled => ?_
        obtain ⟨code, hcode⟩ := (hhandled hdigest).1 _ hverify
        cases hcode
    | ok nonce =>
      simp only [hverify] at h
      have hpassed : ∀ raised, verify env signer request.parseToken request.spec
          request.reservation.userId answers.now = .error raised →
            ∃ code, raised = .draftTokenValidation code := by
        rw [hverify]
        exact nofun
      cases hfind : answers.find with
      | error error =>
        simp only [hfind] at h
        have hmet : (error = .jobStoreConfiguration ∨ ∃ keyReused, error = .parseBoundAdmission keyReused) →
            Handled env signer (.opens call request answers) := by
          intro hcaught _
          refine ⟨hpassed, fun _ _ e he => ?_⟩
          rw [hfind] at he
          cases he
          exact hcaught
        cases error with
        | parseBoundAdmission keyReused =>
          cases h
          exact iff_of_true (settled_discard _ _ hslot) (hmet (.inr ⟨keyReused, rfl⟩))
        | jobStoreConfiguration =>
          cases h
          exact iff_of_true (settled_discard _ _ hslot) (hmet (.inl rfl))
        | explorationPolicyUnavailable | other | cancelled =>
          cases h
          refine iff_of_false (not_settled hslot) fun hhandled => ?_
          rcases (hhandled hdigest).2 nonce hverify _ hfind with hcaught | ⟨keyReused, hcaught⟩
          · cases hcaught
          · cases hcaught
      | ok found =>
        simp only [hfind] at h
        have hfound : ∀ nonce, verify env signer request.parseToken request.spec
            request.reservation.userId answers.now = .ok nonce → ∀ error, answers.find = .error error →
              error = .jobStoreConfiguration ∨ ∃ keyReused, error = .parseBoundAdmission keyReused := by
          intro _ _ error herror
          rw [hfind] at herror
          cases herror
        cases found with
        | none => cases h
        | some jobId =>
          cases h
          exact iff_of_true (settled_complete _ _ hslot) fun _ => ⟨hpassed, hfound⟩

/-- From the quota on a call settles its reservation exactly when it is not cancelled. -/
theorem resumeCall_settled_iff {r : Reservation} (hslot : registry.get? r.slot = some (r.specHash, none))
    (call : ℕ) (quota : Except CalleeError Unit) (admission : Except CalleeError String) :
    Settled (resumeCall registry r quota admission).1 ⟨r, true, (resumeCall registry r quota admission).2⟩ ↔
      Handled env signer (.resumes call quota admission) := by
  have hadmitted : ∀ answer : Except CalleeError String, (quota.bind fun _ => admission) = answer →
      (Handled env signer (.resumes call quota admission) ↔ answer ≠ .error .cancelled) := by
    intro answer hanswer
    cases quota with
    | error error =>
      obtain rfl : Except.error error = answer := hanswer
      exact ⟨fun h => fun hcancelled => h.1 (by cases hcancelled; rfl),
        fun h => ⟨fun hcancelled => h (by cases hcancelled; rfl), nofun⟩⟩
    | ok =>
      obtain rfl : admission = answer := hanswer
      exact ⟨fun h => h.2 rfl, fun h => ⟨nofun, fun _ => h⟩⟩
  cases hanswer : quota.bind fun _ => admission with
  | ok jobId =>
    rw [resumeCall, hanswer, hadmitted _ hanswer]
    exact iff_of_true (settled_complete _ _ hslot) nofun
  | error error =>
    rw [resumeCall, hanswer, hadmitted _ hanswer]
    cases error with
    | cancelled => exact iff_of_false (not_settled hslot) fun h => h rfl
    | parseBoundAdmission keyReused => exact iff_of_true (settled_discard _ _ hslot) nofun
    | jobStoreConfiguration => exact iff_of_true (settled_discard _ _ hslot) nofun
    | explorationPolicyUnavailable => exact iff_of_true (settled_discard _ _ hslot) nofun
    | other => exact iff_of_true (settled_discard _ _ hslot) nofun

/-- A call leaves the slots of the others alone. -/
theorem reservedCall_ne {request : ParseBoundRequest ρ} {answers : Answers}
    (hslot : slot ≠ request.reservation.slot) :
    (reservedCall env signer registry request answers).1.get? slot = registry.get? slot := by
  simp only [reservedCall]
  split
  · exact Registry.get?_discard_ne hslot
  · split
    · exact Registry.get?_discard_ne hslot
    · rfl
    · split
      · exact Registry.get?_discard_ne hslot
      · exact Registry.get?_discard_ne hslot
      · rfl
      · exact Registry.get?_complete_ne hslot _
      · rfl

theorem resumeCall_ne {r : Reservation} (hslot : slot ≠ r.slot) (quota : Except CalleeError Unit)
    (admission : Except CalleeError String) :
    (resumeCall registry r quota admission).1.get? slot = registry.get? slot := by
  unfold resumeCall
  split
  · exact Registry.get?_complete_ne hslot _
  · exact Registry.get?_discard_ne hslot
  · exact Registry.get?_discard_ne hslot
  · exact Registry.get?_discard_ne hslot
  · exact Registry.get?_discard_ne hslot
  · rfl

theorem reservedCall_mismatch {request : ParseBoundRequest ρ} {answers : Answers}
    (h : request.reservation.specHash ≠ canonicalRuleDigest env (some request.spec)) :
    reservedCall env signer registry request answers =
      (registry.discard request.reservation, some (.draftConflict .draftRuleMismatch)) := by
  rw [reservedCall]
  exact if_pos h

/-- Nobody handles an error of the verification other than its own. -/
theorem reservedCall_recursionError {request : ParseBoundRequest ρ} {answers : Answers}
    (hdigest : request.reservation.specHash = canonicalRuleDigest env (some request.spec))
    (hverify : verify env signer request.parseToken request.spec request.reservation.userId
      answers.now = .error .recursionError) :
    reservedCall env signer registry request answers =
      (registry, some (.verifyRaised .recursionError)) := by
  simp only [reservedCall, hdigest, hverify, ne_eq, not_true_eq_false, if_false]

/-- A retry of a reservation that is still open is told to wait. -/
theorem openCall_pending {request : ParseBoundRequest ρ} {answers : Answers}
    (hfront : answers.front = none)
    (hslot : registry.get? request.reservation.slot = some (request.reservation.specHash, none)) :
    openCall env signer registry request answers =
      (registry, false, some (.idempotencyConflict .idempotencyInProgress)) := by
  simp only [openCall, hfront, Registry.begin, hslot, ne_eq, not_true_eq_false, if_false]

theorem reservedCall_awaits {request : ParseBoundRequest ρ} {answers : Answers}
    (h : reservedCall env signer registry request answers = (registry', none)) : registry' = registry := by
  simp only [reservedCall] at h
  split at h
  · cases h
  · split at h
    · cases h
    · cases h
    · split at h
      · cases h
      · cases h
      · cases h
      · cases h
      · cases h
        rfl

/-- A call made the reservation on an empty slot, or it leaves the registry as it was. -/
theorem openCall_cases {request : ParseBoundRequest ρ} {answers : Answers}
    (h : openCall env signer registry request answers = (registry', reserved, outcome)) :
    (reserved = false ∧ registry' = registry ∧ outcome ≠ none) ∨
      (reserved = true ∧ registry.get? request.reservation.slot = none ∧
        reservedCall env signer
          (registry.insert request.reservation.slot (request.reservation.specHash, none)) request answers =
            (registry', outcome)) := by
  unfold openCall at h
  split at h
  · cases h
    exact .inl ⟨rfl, rfl, Option.some_ne_none _⟩
  · split at h
    · rename_i hbegin
      cases h
      exact .inl ⟨rfl, Registry.begin_not_new hbegin (by rintro ⟨⟩), Option.some_ne_none _⟩
    · rename_i hbegin
      cases h
      exact .inl ⟨rfl, Registry.begin_not_new hbegin (by rintro ⟨⟩), Option.some_ne_none _⟩
    · rename_i hbegin
      have hsame := Registry.begin_not_new hbegin (by rintro ⟨⟩)
      split at h <;>
      · cases h
        exact .inl ⟨rfl, hsame, Option.some_ne_none _⟩
    · rename_i hbegin
      obtain ⟨hnone, rfl⟩ := Registry.begin_new hbegin
      cases h
      exact .inr ⟨rfl, hnone, rfl⟩

end Calls

namespace Process
variable {ρ : Type} {env : SignerEnv ρ} {signer : RuleDraftSigner} {s s' : Process}

/-- Every call that awaits its quota holds its reservation, and no two hold the same one. -/
structure Inv (s : Process) : Prop where
  held : ∀ call r, s.awaiting.get? call = some r → s.registry.get? r.slot = some (r.specHash, none)
  distinct : ∀ call call' r r', s.awaiting.get? call = some r → s.awaiting.get? call' = some r' →
    r.slot = r'.slot → call = call'

theorem Inv.start : Inv start := ⟨nofun, nofun⟩

/-- What a call does to its own slot leaves the invariant of the calls that await. -/
theorem Inv.registry (h : Inv s) {registry : Registry}
    (hsame : ∀ call r, s.awaiting.get? call = some r → registry.get? r.slot = s.registry.get? r.slot) :
    Inv ⟨registry, s.awaiting⟩ := by
  refine ⟨fun call r hr => ?_, h.distinct⟩
  exact (hsame call r hr).trans (h.held call r hr)

theorem Inv.step (h : Inv s) {action : CallAction ρ}
    (hstep : s.step env signer action = some (s', ended)) : Inv s' := by
  cases action with
  | opens call request answers =>
    simp only [Process.step] at hstep
    split at hstep
    · cases hstep
    · rename_i hfree
      split at hstep
      · rename_i registry reserved outcome hopen
        cases hstep
        apply h.registry
        intro other r hr
        rcases openCall_cases hopen with ⟨-, rfl, -⟩ | ⟨-, hnone, hcall⟩
        · rfl
        · have hslot : r.slot ≠ request.reservation.slot := by
            intro hsame
            rw [← hsame, h.held other r hr] at hnone
            cases hnone
          have hleft := @reservedCall_ne _ env signer
            (s.registry.insert request.reservation.slot (request.reservation.specHash, none)) _ request
            answers hslot
          rw [hcall, Dict.get?_insert, if_neg hslot] at hleft
          exact hleft
      · rename_i registry reserved hopen
        cases hstep
        rcases openCall_cases hopen with ⟨-, -, hended⟩ | ⟨-, hnone, hcall⟩
        · exact absurd rfl hended
        · obtain rfl := reservedCall_awaits hcall
          have hother : ∀ other r, s.awaiting.get? other = some r → r.slot ≠ request.reservation.slot := by
            intro other r hr hsame
            rw [← hsame, h.held other r hr] at hnone
            cases hnone
          have hawaiting : ∀ other r,
              (s.awaiting.insert call request.reservation).get? other = some r →
                (other = call ∧ r = request.reservation) ∨ s.awaiting.get? other = some r := by
            intro other r hr
            rw [Dict.get?_insert] at hr
            split at hr
            · rename_i hcalled
              cases hr
              exact .inl ⟨hcalled, rfl⟩
            · exact .inr hr
          refine ⟨fun other r hr => ?_, fun c c' r r' hc hc' hslot => ?_⟩
          · rcases hawaiting other r hr with ⟨-, rfl⟩ | hr
            · exact Dict.get?_insert_self _
            · exact (Dict.get?_insert _).trans ((if_neg (hother other r hr)).trans (h.held other r hr))
          · rcases hawaiting c r hc with ⟨hcall, hr⟩ | hold
            · rcases hawaiting c' r' hc' with ⟨hcall', -⟩ | hold'
              · exact hcall.trans hcall'.symm
              · rw [hr] at hslot
                exact absurd hslot.symm (hother c' r' hold')
            · rcases hawaiting c' r' hc' with ⟨-, hr'⟩ | hold'
              · rw [hr'] at hslot
                exact absurd hslot (hother c r hold)
              · exact h.distinct c c' r r' hold hold' hslot
  | resumes call quota admission =>
    simp only [Process.step] at hstep
    split at hstep
    · cases hstep
    · rename_i r hr
      cases hstep
      have hdistinct : ∀ other r', (s.awaiting.erase call).get? other = some r' →
          s.awaiting.get? other = some r' ∧ r'.slot ≠ r.slot := by
        intro other r' hr'
        rw [Dict.get?_erase] at hr'
        split at hr'
        · cases hr'
        · rename_i hne
          exact ⟨hr', fun hslot => hne (h.distinct other call r' r hr' hr hslot)⟩
      refine ⟨fun other r' hr' => ?_, fun c c' r₁ r₂ h₁ h₂ => ?_⟩
      · obtain ⟨hother, hslot⟩ := hdistinct other r' hr'
        exact (resumeCall_ne hslot quota admission).trans (h.held other r' hother)
      · exact h.distinct c c' r₁ r₂ (hdistinct c r₁ h₁).1 (hdistinct c' r₂ h₂).1

theorem Reachable.inv (h : Reachable env signer s) : Inv s := by
  induction h with
  | start => exact Inv.start
  | step _ action hstep ih => exact ih.step hstep

end Process

section Concrete

/-- A call with the given token and spec hash whose callees answer without raising. -/
def plainRequest (token specHash : String) : ParseBoundRequest Json where
  reservation := ⟨"7", "0123456789abcdef", specHash⟩
  parseToken := token
  spec := plainRule

def calmAnswers : Answers where
  front := none
  getJob _ := .ok none
  now := 0
  find := .ok none

def plainDigest : String := canonicalRuleDigest plainEnv (some plainRule)

theorem step_reserved (request : ParseBoundRequest Json)
    (hcall : reservedCall plainEnv plainSigner
      (Registry.begin .empty request.reservation).2 request calmAnswers = (registry, some outcome)) :
    Process.start.step plainEnv plainSigner (.opens 0 request calmAnswers) =
      some (⟨registry, .empty⟩, some ⟨request.reservation, true, outcome⟩) := by
  have hopen : openCall plainEnv plainSigner .empty request calmAnswers =
      ((reservedCall plainEnv plainSigner (Registry.begin .empty request.reservation).2 request
          calmAnswers).1, true,
        (reservedCall plainEnv plainSigner (Registry.begin .empty request.reservation).2 request
          calmAnswers).2) := rfl
  rw [hcall] at hopen
  simp only [Process.step, Process.start, hopen]
  rfl

end Concrete

end QuantAgent.Jobs
