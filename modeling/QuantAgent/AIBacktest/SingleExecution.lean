import QuantAgent.AIBacktest.Runs

namespace QuantAgent.AIBacktest
set_option autoImplicit true

/-- The lease that goes with a state. -/
def RequestState.lease : RequestState → SafetyLease
  | .executionOutcomeUnknown => .blockedUnknown
  | .succeeded | .failed | .abandoned => .closed
  | _ => .active

/-- How far a request has come. -/
def RequestState.rank : RequestState → ℕ
  | .claimed => 0
  | .generationInProgress => 1
  | .executionArmed => 2
  | .executionReleased => 3
  | .executionOutcomeUnknown => 4
  | .succeeded | .failed | .abandoned => 5

theorem RequestState.lease_live (s : RequestState) : s.lease.live = !s.terminal := by
  cases s <;> rfl

theorem RequestState.rank_terminal (s : RequestState) : s.terminal = true ↔ 5 ≤ s.rank := by
  cases s <;> decide

/-- A transition moves a request on, to the lease of its new state; it does not release. -/
structure Transition.Sound (args : Transition) : Prop where
  rank : args.expectedState.rank < args.nextState.rank
  lease : args.safetyLease.getD args.expectedState.lease = args.nextState.lease
  armed : args.nextState = .executionArmed → ∃ executionRunId, args = armExecution executionRunId
  released : args.nextState ≠ .executionReleased
  response : args.terminalResponse.isSome → args.nextState.terminal

theorem FromService.sound (h : FromService args) : args.Sound := by
  cases h with
  | begin => exact ⟨by decide, rfl, nofun, nofun, nofun⟩
  | arm executionRunId => exact ⟨(by decide : 1 < 2), rfl, fun _ => ⟨executionRunId, rfl⟩, nofun, nofun⟩
  | success result h =>
    obtain ⟨expectedState, hmem, rfl⟩ := List.mem_map.mp h
    have hrank : ∀ s ∈ [RequestState.executionReleased, .generationInProgress], s.rank < 5 := by decide
    exact ⟨hrank _ hmem, rfl, nofun, nofun, fun _ => rfl⟩
  | failure response h =>
    obtain ⟨expectedState, hmem, rfl⟩ := List.mem_map.mp h
    have hrank : ∀ s ∈ [RequestState.executionReleased, .executionOutcomeUnknown, .executionArmed,
      .generationInProgress], s.rank < 5 := by decide
    exact ⟨hrank _ hmem, rfl, nofun, nofun, fun _ => rfl⟩
  | unknown h =>
    obtain ⟨expectedState, hmem, rfl⟩ := List.mem_map.mp h
    have hrank : ∀ s ∈ [RequestState.executionReleased, .executionArmed, .generationInProgress,
      .claimed], s.rank < 4 := by decide
    exact ⟨hrank _ hmem, rfl, nofun, nofun, nofun⟩

/-- State, lease and stored response go together. -/
structure Request.Consistent (row : Request) : Prop where
  lease : row.safetyLease = row.state.lease
  response : row.terminalResponse.isSome → row.state.terminal

theorem Request.Consistent.live_iff {row : Request} (h : row.Consistent) :
    row.safetyLease.live = true ↔ row.state.rank < 5 := by
  have hrank := row.state.rank_terminal
  rw [h.lease, RequestState.lease_live, Bool.not_eq_true']
  cases hterminal : row.state.terminal with
  | true =>
    rw [hterminal] at hrank
    have := hrank.mp rfl
    simp only [Bool.true_eq_false, false_iff]
    omega
  | false =>
    rw [hterminal] at hrank
    simp only [Bool.false_eq_true, false_iff] at hrank
    simp only [true_iff]
    omega

namespace Tables

/-- What no later transaction undoes of a request. -/
structure Follows (old new : Request) : Prop where
  intentKey : new.intentKey = old.intentKey
  rank : old.state.rank ≤ new.state.rank

/-- Requests stay and only move on, and what is consumed stays consumed. -/
structure Advances (t t' : Tables) : Prop where
  requests : t.requests.All fun id old => ∃ new, t'.requests.get? id = some new ∧ Follows old new
  consumed : t.approvals.All fun id old => old.status = .consumed →
    ∃ new, t'.approvals.get? id = some new ∧ new.status = .consumed

theorem Advances.refl (t : Tables) : t.Advances t where
  requests _ old hget := ⟨old, hget, rfl, le_rfl⟩
  consumed _ old hget hconsumed := ⟨old, hget, hconsumed⟩

theorem Advances.trans {t t' t'' : Tables} (h : t.Advances t') (h' : t'.Advances t'') : t.Advances t'' where
  requests id old hget := by
    obtain ⟨mid, hmid, hkey, hrank⟩ := h.requests id old hget
    obtain ⟨new, hnew, hkey', hrank'⟩ := h'.requests id mid hmid
    exact ⟨new, hnew, hkey'.trans hkey, hrank.trans hrank'⟩
  consumed id old hget hconsumed := by
    obtain ⟨mid, hmid, hconsumed'⟩ := h.consumed id old hget hconsumed
    exact h'.consumed id mid hmid hconsumed'

theorem get?_setRequest (t : Tables) (row : Request) (id : String) :
    (t.setRequest row).requests.get? id = if id = row.requestId then some row else t.requests.get? id :=
  Dict.get?_insert _

/-- A write keeps the identity of the request and moves it on, or leaves an end where it is. -/
structure Moved (old new : Request) : Prop where
  requestId : new.requestId = old.requestId
  intentKey : new.intentKey = old.intentKey
  clientRequestKey : new.clientRequestKey = old.clientRequestKey
  moves : old.state.rank < new.state.rank ∨ old.state.terminal ∧ new.state = old.state
  consistent : new.Consistent

theorem Writes.moved {t : Tables} {a : Action ι} (h : Writes env t a old new) (hold : old.Consistent) :
    Moved old new := by
  cases h with
  | transitioned _ args hargs hstate =>
    have hsound := hargs.sound
    refine ⟨rfl, rfl, rfl, .inl (hstate ▸ hsound.rank), ?_, fun hresponse => ?_⟩
    · change args.safetyLease.getD old.safetyLease = args.nextState.lease
      rw [hold.lease, hstate, hsound.lease]
    · change (args.terminalResponse.or old.terminalResponse).isSome at hresponse
      rw [Option.isSome_or, Bool.or_eq_true] at hresponse
      rcases hresponse with hnew | hkept
      · exact hsound.response hnew
      · have hterminal := (RequestState.rank_terminal _).mp (hold.response hkept)
        rw [hstate] at hterminal
        exact (RequestState.rank_terminal _).mpr (hterminal.trans hsound.rank.le)
  | released _ execution hstate hlease =>
    refine ⟨rfl, rfl, rfl, .inl ?_, hlease, fun hresponse => ?_⟩
    · rw [hstate]
      exact (by decide : 2 < 3)
    · have hterminal := hold.response hresponse
      rw [hstate] at hterminal
      cases hterminal
  | terminalized _ hterminal hlive =>
    refine ⟨rfl, rfl, rfl, .inl ?_, ?_, fun _ => ?_⟩
    · have hrank := hold.live_iff.mp hlive
      rcases hterminal with rfl | rfl
      · exact hrank
      · exact hrank
    · rcases hterminal with rfl | rfl
      · rfl
      · rfl
    · rcases hterminal with rfl | rfl
      · rfl
      · rfl
  | evidenced _ hterminal => exact ⟨rfl, rfl, rfl, .inr ⟨hterminal, rfl⟩, hold.lease, hold.response⟩

theorem Moved.follows (h : Moved old new) : Follows old new := by
  refine ⟨h.intentKey, ?_⟩
  rcases h.moves with hrank | ⟨-, hstate⟩
  · exact hrank.le
  · rw [hstate]

theorem Moved.live (h : Moved old new) (hold : old.Consistent) (hlive : new.safetyLease.live) :
    old.safetyLease.live :=
  hold.live_iff.mpr (h.follows.rank.trans_lt (h.consistent.live_iff.mp hlive))

/-- How many requests an intent has had, and how many approvals it has used up. -/
def created (t : Tables) (key : IntentKey) : ℕ := t.requests.count fun row => row.intentKey == key

def consumed (t : Tables) (key : IntentKey) : ℕ :=
  t.approvals.count fun row => row.intentKey == key && row.status == .consumed

/-- What holds of the tables after any transactions. -/
structure Inv (t : Tables) : Prop where
  keyed : t.Keyed
  consistent : t.requests.All fun _ row => row.Consistent
  live : ∀ id id' row row', t.requests.get? id = some row → t.requests.get? id' = some row' →
    row.intentKey = row'.intentKey → row.safetyLease.live → row'.safetyLease.live → id = id'
  counted : ∀ key, t.created key ≤ 1 + t.consumed key

theorem Inv.empty : Tables.empty.Inv where
  keyed := ⟨.empty, .empty⟩
  consistent := .empty
  live _ _ _ _ h := nomatch h
  counted _ := Nat.zero_le _

theorem get?_setApproval (t : Tables) (row : Approval) (id : String) :
    (t.setApproval row).approvals.get? id = if id = row.approvalId then some row else t.approvals.get? id :=
  Dict.get?_insert _

/-- What a claim has done when it goes on to insert. -/
structure Admitted (t t' : Tables) (key : IntentKey) : Prop where
  requests : t'.requests = t.requests
  keyed : t'.Keyed
  advances : t.Advances t'
  consumed : ∀ key, t.consumed key ≤ t'.consumed key
  room : t.created key ≤ t'.consumed key

theorem Admits.admitted {t t' : Tables} (h : t.Admits key draw t') (hinv : t.Inv) : Admitted t t' key := by
  cases h with
  | first h =>
    refine ⟨rfl, hinv.keyed, .refl t, fun _ => le_rfl, ?_⟩
    rw [created, Dict.count, List.countP_eq_length_filter, h]
    exact Nat.zero_le _
  | replaces approval h =>
    have hcount : ∀ key', ((t.setApproval { approval with status := .consumed }).consumed key' : ℤ) =
        t.consumed key' + if key = key' then 1 else 0 := by
      intro key'
      rw [Tables.consumed, setApproval, Dict.count_insert_old _ h.stored, Tables.consumed]
      simp [h.issued, h.intentKey]
    refine ⟨rfl, ⟨hinv.keyed.requests, hinv.keyed.approvals.insert rfl⟩, ⟨fun id old hget => ?_, ?_⟩,
      fun key' => ?_, ?_⟩
    · exact ⟨old, hget, rfl, le_rfl⟩
    · intro id old hget hconsumed
      rw [get?_setApproval]
      split
      · exact ⟨_, rfl, rfl⟩
      · exact ⟨old, hget, hconsumed⟩
    · have := hcount key'
      split at this <;> omega
    · have hbound := hinv.counted key
      have := hcount key
      rw [if_pos rfl] at this
      omega

theorem Inv.wrote {t : Tables} (h : t.Inv) (hget : t.requests.get? old.requestId = some old)
    (hmoved : Moved old new) : (t.setRequest new).Inv := by
  have hold : old.Consistent := h.consistent _ _ hget
  have hget' : t.requests.get? new.requestId = some old := hmoved.requestId ▸ hget
  -- A live row after the write was live before it, under the same intent.
  have hbefore : ∀ id row, (t.setRequest new).requests.get? id = some row → row.safetyLease.live →
      ∃ row', t.requests.get? id = some row' ∧ row'.intentKey = row.intentKey ∧ row'.safetyLease.live := by
    intro id row hrow hlive
    rw [get?_setRequest] at hrow
    split at hrow
    · rename_i hid
      obtain rfl := Option.some.inj hrow
      exact ⟨old, hid ▸ hget', hmoved.intentKey.symm, hmoved.live hold hlive⟩
    · exact ⟨row, hrow, rfl, hlive⟩
  refine ⟨⟨h.keyed.requests.insert rfl, h.keyed.approvals⟩, h.consistent.insert hmoved.consistent, ?_, ?_⟩
  · intro id id' row row' hrow hrow' hkey hlive hlive'
    obtain ⟨before, hbefore₁, hkey₁, hlive₁⟩ := hbefore id row hrow hlive
    obtain ⟨before', hbefore₂, hkey₂, hlive₂⟩ := hbefore id' row' hrow' hlive'
    exact h.live id id' before before' hbefore₁ hbefore₂ (hkey₁.trans (hkey.trans hkey₂.symm)) hlive₁ hlive₂
  · intro key
    have hcount : (t.setRequest new).created key = t.created key :=
      Dict.count_insert_same hget' (by simp only [hmoved.intentKey])
    rw [hcount]
    exact h.counted key

theorem Advances.wrote {t : Tables} (hget : t.requests.get? old.requestId = some old)
    (hmoved : Moved old new) : t.Advances (t.setRequest new) := by
  refine ⟨fun id row hrow => ?_, fun id row hrow hconsumed => ⟨row, hrow, hconsumed⟩⟩
  simp only [get?_setRequest]
  split
  · rename_i hid
    rw [hid, hmoved.requestId, hget] at hrow
    obtain rfl := Option.some.inj hrow
    exact ⟨new, rfl, hmoved.follows⟩
  · exact ⟨row, hrow, rfl, le_rfl⟩

/-- The insertion of a request for which there is room. -/
theorem Inv.created {t t₁ : Tables} {bound : BoundRequest} (h : t.Inv)
    (hadmitted : Admitted t t₁ bound.intentKey)
    (hnew : ∀ row ∈ t.requests.values, conflicts row (claimedRow bound draw) = false) :
    (t₁.setRequest (claimedRow bound draw)).Inv ∧ t.Advances (t₁.setRequest (claimedRow bound draw)) := by
  have hvalue : ∀ id row, t₁.requests.get? id = some row → conflicts row (claimedRow bound draw) = false := by
    intro id row hget
    rw [hadmitted.requests] at hget
    exact hnew row (List.mem_map.mpr ⟨_, Dict.entry_mem_of_get? hget, rfl⟩)
  have hfresh : t₁.requests.get? (claimedRow bound draw).requestId = none := by
    cases hget : t₁.requests.get? (claimedRow bound draw).requestId with
    | none => rfl
    | some old =>
      have hconflict := hvalue _ old hget
      simp [conflicts, hadmitted.keyed.requests _ _ hget] at hconflict
  have hother : ∀ id row, t₁.requests.get? id = some row → row.intentKey = bound.intentKey →
      row.safetyLease.live = false := by
    intro id row hget hkey
    have hconflict := hvalue id row hget
    simp only [conflicts, Bool.or_eq_false_iff, Bool.and_eq_false_iff] at hconflict
    rcases hconflict.2 with (hne | hlease) | hdead
    · exact absurd hkey (beq_eq_false_iff_ne.mp hne)
    · exact hlease
    · cases hdead
  refine ⟨⟨⟨hadmitted.keyed.requests.insert rfl, hadmitted.keyed.approvals⟩, ?_, ?_, ?_⟩,
    ⟨fun id row hget => ?_, fun id row hget hconsumed => hadmitted.advances.consumed id row hget hconsumed⟩⟩
  · have hconsistent := h.consistent
    rw [← hadmitted.requests] at hconsistent
    exact hconsistent.insert ⟨rfl, nofun⟩
  · intro id id' row row' hrow hrow' hkey hlive hlive'
    rw [get?_setRequest] at hrow hrow'
    split at hrow
    · rename_i hid
      obtain rfl := Option.some.inj hrow
      split at hrow'
      · rename_i hid'
        rw [hid, hid']
      · rw [hother id' row' hrow' hkey.symm] at hlive'
        cases hlive'
    · split at hrow'
      · obtain rfl := Option.some.inj hrow'
        rw [hother id row hrow hkey] at hlive
        cases hlive
      · rw [hadmitted.requests] at hrow hrow'
        exact h.live id id' row row' hrow hrow' hkey hlive hlive'
  · intro key
    have hcount : (t₁.setRequest (claimedRow bound draw)).created key =
        t.created key + if bound.intentKey == key then 1 else 0 := by
      rw [Tables.created, setRequest, Dict.count_insert_new _ (Dict.get?_eq_none_iff.mp hfresh),
        hadmitted.requests]
      rfl
    change _ ≤ 1 + t₁.consumed key
    rw [hcount]
    by_cases hkey : bound.intentKey = key
    · subst hkey
      have hroom := hadmitted.room
      rw [if_pos (beq_self_eq_true _)]
      omega
    · have hbound := h.counted key
      have hgrows := hadmitted.consumed key
      rw [if_neg (by simpa using hkey)]
      omega
  · have hget' : t₁.requests.get? id = some row := hadmitted.requests ▸ hget
    refine ⟨row, ?_, rfl, le_rfl⟩
    rw [get?_setRequest, if_neg, hget']
    rintro rfl
    rw [hfresh] at hget'
    cases hget'

theorem Inv.issued {t : Tables} (h : t.Inv) (sourceRequestId : String) (now : ℤ)
    (hissued : row.status = .issued)
    (hnew : (t.expireApprovals sourceRequestId now).approvals.get? row.approvalId = none) :
    ((t.expireApprovals sourceRequestId now).setApproval row).Inv ∧
      t.Advances ((t.expireApprovals sourceRequestId now).setApproval row) := by
  have hkeyed := h.keyed.expireApprovals sourceRequestId now
  refine ⟨⟨⟨h.keyed.requests, hkeyed.approvals.insert rfl⟩, h.consistent, h.live, fun key => ?_⟩,
    ⟨fun id old hget => ⟨old, hget, rfl, le_rfl⟩, fun id old hget hconsumed => ?_⟩⟩
  · have hcount : ((t.expireApprovals sourceRequestId now).setApproval row).consumed key = t.consumed key := by
      rw [Tables.consumed, setApproval, Dict.count_insert_new _ (Dict.get?_eq_none_iff.mp hnew), hissued,
        expireApprovals, Dict.count_mapVal]
      · simp [Tables.consumed]
      · intro id old
        split
        · rename_i hold
          rw [hold.2.1]
          rfl
        · rfl
    rw [hcount]
    exact h.counted key
  · have hget' : (t.expireApprovals sourceRequestId now).approvals.get? id = some old := by
      rw [expireApprovals, Dict.get?_mapVal, hget, Option.map_some, if_neg]
      rintro ⟨-, hissued, -⟩
      rw [hconsumed] at hissued
      cases hissued
    refine ⟨old, ?_, hconsumed⟩
    rw [get?_setApproval, if_neg, hget']
    rintro rfl
    rw [hnew] at hget'
    cases hget'

theorem Inv.exec {t t' : Tables} {a : Action ι} (h : t.Inv) (hexec : t.exec env a = (reply, t')) :
    t'.Inv ∧ t.Advances t' := by
  cases exec_cases h.keyed hexec with
  | refused => exact ⟨h, .refl t⟩
  | found => exact ⟨h, .refl t⟩
  | admitted hbound hadmits =>
    have hadmitted := hadmits.admitted h
    refine ⟨⟨hadmitted.keyed, ?_, ?_, fun key => ?_⟩, hadmitted.advances⟩
    · rw [hadmitted.requests]
      exact h.consistent
    · rw [hadmitted.requests]
      exact h.live
    · have hbound := h.counted key
      have hgrows := hadmitted.consumed key
      rw [Tables.created, hadmitted.requests]
      rw [Tables.created] at hbound
      omega
  | created hbound hadmits hnew => exact h.created (hadmits.admitted h) hnew
  | wrote hget hwrites =>
    have hmoved := hwrites.moved (h.consistent _ _ hget)
    exact ⟨h.wrote hget hmoved, .wrote hget hmoved⟩
  | issued source hsource hnew => exact h.issued _ _ rfl hnew
  | ran hrequests happrovals =>
    refine ⟨⟨⟨?_, ?_⟩, ?_, ?_, ?_⟩, ⟨?_, ?_⟩⟩
    · exact hrequests ▸ h.keyed.requests
    · exact happrovals ▸ h.keyed.approvals
    · exact hrequests ▸ h.consistent
    · exact hrequests ▸ h.live
    · intro key
      rw [Tables.created, Tables.consumed, hrequests, happrovals]
      exact h.counted key
    · exact fun id old hget => ⟨old, hrequests ▸ hget, rfl, le_rfl⟩
    · exact fun id old hget hconsumed => ⟨old, happrovals ▸ hget, hconsumed⟩

/-- A request after a transaction was there before, is new, or was written. -/
theorem Outcome.request_cases {t t' : Tables} {a : Action ι} {id : String} {row : Request} (h : Outcome env t a reply t')
    (hinv : t.Inv) (hrow : t'.requests.get? id = some row) :
    t.requests.get? id = some row ∨ row.state = .claimed ∨
      ∃ old, old.requestId = id ∧ t.requests.get? id = some old ∧ Writes env t a old row ∧
        reply = .ok (.claim (claimFromRow row)) := by
  cases h with
  | refused => exact .inl hrow
  | found => exact .inl hrow
  | admitted hbound hadmits => exact .inl ((hadmits.admitted hinv).requests ▸ hrow)
  | created hbound hadmits hnew =>
    rw [get?_setRequest] at hrow
    split at hrow
    · obtain rfl := Option.some.inj hrow
      exact .inr (.inl rfl)
    · exact .inl ((hadmits.admitted hinv).requests ▸ hrow)
  | wrote hget hwrites =>
    rw [get?_setRequest] at hrow
    split at hrow
    · rename_i hid
      obtain rfl := Option.some.inj hrow
      rw [(hwrites.moved (hinv.consistent _ _ hget)).requestId] at hid
      exact .inr (.inr ⟨_, hid.symm, hid ▸ hget, hwrites, rfl⟩)
    · exact .inl hrow
  | issued source hsource hnew => exact .inl hrow
  | ran hrequests happrovals => exact .inl (hrequests ▸ hrow)

/-- Only a release makes a request released. -/
theorem Writes.releases {t : Tables} {a : Action ι} (h : Writes env t a old new)
    (hold : old.state ≠ .executionReleased) (hnew : new.state = .executionReleased) :
    ∃ execution runId attemptId,
      a = .releaseArmedExecutionRequest old.requestId old.stateVersion runId attemptId ∧
        old.state = .executionArmed ∧ old.safetyLease = .active ∧ old.executionRunId = some runId ∧
        t.executions.get? runId = some execution ∧ execution.identified attemptId := by
  cases h with
  | transitioned _ args hargs hstate => exact absurd hnew hargs.sound.released
  | released _ execution hstate hlease hrun hget hidentified =>
    exact ⟨execution, _, _, rfl, hstate, hlease, hrun, hget, hidentified⟩
  | terminalized _ hterminal hlive =>
    rcases hterminal with rfl | rfl
    · cases hnew
    · cases hnew
  | evidenced _ hterminal => exact absurd hnew hold

theorem Writes.arms {t : Tables} {a : Action ι} (h : Writes env t a old new)
    (hnew : new.state = .executionArmed) :
    ∃ executionRunId h, a = .transitionIdempotentRequest old.requestId (armExecution executionRunId) h := by
  cases h with
  | transitioned _ args hargs hstate =>
    obtain ⟨executionRunId, rfl⟩ := hargs.sound.armed hnew
    exact ⟨executionRunId, hargs, rfl⟩
  | released _ execution hstate hlease hrun hget hidentified => cases hnew
  | terminalized _ hterminal hlive =>
    rcases hterminal with rfl | rfl
    · cases hnew
    · cases hnew
  | evidenced _ hterminal =>
    change old.state = .executionArmed at hnew
    rw [hnew] at hterminal
    cases hterminal

theorem Admits.consumes {t t' : Tables} {id : String} (h : t.Admits key draw t')
    (hbefore : ∀ row, t.approvals.get? id = some row → row.status ≠ .consumed)
    (hafter : t'.approvals.get? id = some row) (hrow : row.status = .consumed) :
    ∃ approval, approval.approvalId = id ∧ t.Consumable key draw approval := by
  cases h with
  | first => exact absurd hrow (hbefore row hafter)
  | replaces approval h =>
    rw [get?_setApproval] at hafter
    split at hafter
    · rename_i hid
      exact ⟨approval, hid.symm, h⟩
    · exact absurd hrow (hbefore row hafter)

theorem Outcome.consumes {t t' : Tables} {a : Action ι} {id : String} (h : Outcome env t a reply t')
    (hbefore : ∀ row, t.approvals.get? id = some row → row.status ≠ .consumed)
    (hafter : t'.approvals.get? id = some row) (hrow : row.status = .consumed) :
    ∃ request draw key approval, a = .claimIdempotentRequest request draw ∧ approval.approvalId = id ∧
      t.Consumable key draw approval := by
  cases h with
  | refused => exact absurd hrow (hbefore row hafter)
  | found => exact absurd hrow (hbefore row hafter)
  | @admitted _ _ _ _ request _ hbound hadmits =>
    obtain ⟨approval, hid, hconsumable⟩ := hadmits.consumes hbefore hafter hrow
    exact ⟨_, _, _, approval, rfl, hid, hconsumable⟩
  | created hbound hadmits hnew =>
    obtain ⟨approval, hid, hconsumable⟩ := hadmits.consumes hbefore hafter hrow
    exact ⟨_, _, _, approval, rfl, hid, hconsumable⟩
  | wrote hget hwrites => exact absurd hrow (hbefore row hafter)
  | issued source hsource hnew =>
    rw [get?_setApproval] at hafter
    split at hafter
    · obtain rfl := Option.some.inj hafter
      cases hrow
    · rw [expireApprovals, Dict.get?_mapVal, Option.map_eq_some_iff] at hafter
      obtain ⟨old, hold, rfl⟩ := hafter
      split at hrow
      · cases hrow
      · exact absurd hrow (hbefore old hold)
  | ran hrequests happrovals => exact absurd hrow (hbefore row (happrovals ▸ hafter))

end Tables

/-- One transaction as it happened. -/
structure Entry (ι : Type) where
  action : Action ι
  reply : Except AppError Reply
  before : Tables
  after : Tables

namespace Entry

/-- The request becomes released. -/
def Releases (e : Entry ι) (id : String) : Prop :=
  (∀ row, e.before.requests.get? id = some row → row.state ≠ .executionReleased) ∧
    ∃ row, e.after.requests.get? id = some row ∧ row.state = .executionReleased

/-- The request was armed at the version that the caller was told. -/
def Arms (e : Entry ι) (id : String) (version : ℕ) : Prop :=
  ∃ executionRunId h claim, e.action = .transitionIdempotentRequest id (armExecution executionRunId) h ∧
    e.reply = .ok (.claim claim) ∧ claim.stateVersion = version

/-- The approval becomes consumed. -/
def Consumes (e : Entry ι) (id : String) : Prop :=
  (∀ row, e.before.approvals.get? id = some row → row.status ≠ .consumed) ∧
    ∃ row, e.after.approvals.get? id = some row ∧ row.status = .consumed

end Entry

/-- The tables and what has happened so far, the latest first. -/
structure Run (ι : Type) where
  tables : Tables
  log : List (Entry ι)

namespace Run

def step (env : RepositoryEnv) (r : Run ι) (a : Action ι) : Run ι :=
  let result := r.tables.exec env a
  ⟨result.2, ⟨a, result.1, r.tables, result.2⟩ :: r.log⟩

/-- Transactions of any number of workers and operators, in the order in which they took effect. -/
def exec (env : RepositoryEnv) (acts : List (Action ι)) : Run ι := acts.foldl (step env) ⟨.empty, []⟩

/-- Why a release was right: the request was armed, by now, at this version, and its process is known. -/
structure RightlyReleased (e : Entry ι) (older : List (Entry ι)) (id : String) : Prop where
  armed : ∃ row execution version runId attemptId,
    e.action = .releaseArmedExecutionRequest id version runId attemptId ∧
      e.before.requests.get? id = some row ∧ row.state = .executionArmed ∧ row.safetyLease = .active ∧
      row.stateVersion = version ∧ (∃ e' ∈ older, e'.Arms id version) ∧
      row.executionRunId = some runId ∧ e.before.executions.get? runId = some execution ∧
      execution.identified attemptId
  stillOpen : ∀ e' ∈ older, ∀ row, e'.after.requests.get? id = some row → ¬ row.state.terminal

/-- Why a consumption was right: the approval was live and its source closed with evidence. -/
def RightlyConsumed (e : Entry ι) (id : String) : Prop :=
  ∃ request draw approval source, e.action = .claimIdempotentRequest request draw ∧
    e.before.approvals.get? id = some approval ∧ approval.status = .issued ∧
    draw.consumedAt < approval.expiresAt ∧ e.before.requests.get? approval.sourceRequestId = some source ∧
    source.intentKey = approval.intentKey ∧ source.state.terminal ∧ source.safetyLease = .closed ∧
    source.terminalEvidence.isSome

structure Inv (env : RepositoryEnv) (r : Run ι) : Prop where
  tables : r.tables.Inv
  sound : ∀ e ∈ r.log, e.before.Inv ∧ e.before.exec env e.action = (e.reply, e.after)
  advanced : ∀ e ∈ r.log, e.after.Advances r.tables
  armed : ∀ id row, r.tables.requests.get? id = some row → row.state = .executionArmed →
    ∃ e ∈ r.log, e.Arms id row.stateVersion
  released : ∀ newer e older id, r.log = newer ++ e :: older → e.Releases id → RightlyReleased e older id
  releasedOnce : r.log.Pairwise fun e e' => ∀ id, e.Releases id → ¬ e'.Releases id
  consumedOnce : r.log.Pairwise fun e e' => ∀ id, e.Consumes id → ¬ e'.Consumes id

theorem Inv.step {r : Run ι} (h : Inv env r) (a : Action ι) : Inv env (r.step env a) := by
  obtain ⟨reply, t', hexec⟩ : ∃ reply t', r.tables.exec env a = (reply, t') := ⟨_, _, rfl⟩
  obtain ⟨hinv, hadvances⟩ := h.tables.exec hexec
  have hout := Tables.exec_cases h.tables.keyed hexec
  simp only [Run.step, hexec]
  -- A request that the new entry releases was armed, and so never released or closed before.
  have hnew : ∀ id, (⟨a, reply, r.tables, t'⟩ : Entry ι).Releases id →
      ∃ old, r.tables.requests.get? id = some old ∧ old.state = .executionArmed ∧
        RightlyReleased ⟨a, reply, r.tables, t'⟩ r.log id := by
    rintro id ⟨hbefore, row, hafter, hreleased⟩
    rcases hout.request_cases h.tables hafter with hsame | hclaimed | ⟨old, rfl, hget, hwrites, -⟩
    · exact absurd hreleased (hbefore row hsame)
    · rw [hclaimed] at hreleased
      cases hreleased
    · obtain ⟨execution, runId, attemptId, hact, hstate, hlease, hrun, hexecution, hidentified⟩ :=
        hwrites.releases (hbefore old hget) hreleased
      refine ⟨old, hget, hstate, ⟨old, execution, _, runId, attemptId, hact, hget, hstate, hlease, rfl,
        h.armed _ old hget hstate, hrun, hexecution, hidentified⟩, ?_⟩
      intro e he row' hrow' hterminal
      obtain ⟨new, hnew, -, hrank⟩ := (h.advanced e he).requests _ row' hrow'
      obtain rfl := Option.some.inj (hget.symm.trans hnew)
      rw [hstate] at hrank
      have := (RequestState.rank_terminal _).mp hterminal
      exact absurd (this.trans hrank) (by decide)
  refine ⟨hinv, ?_, ?_, ?_, ?_, ?_, ?_⟩
  · exact List.forall_mem_cons.mpr ⟨⟨h.tables, hexec⟩, h.sound⟩
  · exact List.forall_mem_cons.mpr ⟨.refl t', fun e he => (h.advanced e he).trans hadvances⟩
  · intro id row hget harmed
    rcases hout.request_cases h.tables hget with hsame | hclaimed | ⟨old, rfl, hold, hwrites, hreply⟩
    · obtain ⟨e, he, harms⟩ := h.armed id row hsame harmed
      exact ⟨e, List.mem_cons_of_mem _ he, harms⟩
    · rw [hclaimed] at harmed
      cases harmed
    · obtain ⟨executionRunId, hargs, hact⟩ := hwrites.arms harmed
      exact ⟨_, List.mem_cons_self .., executionRunId, hargs, _, hact, hreply, rfl⟩
  · intro newer e older id hlog hreleases
    cases newer with
    | nil =>
      obtain ⟨rfl, rfl⟩ := List.cons.inj hlog
      obtain ⟨-, -, -, hright⟩ := hnew id hreleases
      exact hright
    | cons e' newer => exact h.released newer e older id (List.cons.inj hlog).2 hreleases
  · refine List.pairwise_cons.mpr ⟨fun e he id hreleases hearlier => ?_, h.releasedOnce⟩
    obtain ⟨old, hget, harmed, -⟩ := hnew id hreleases
    obtain ⟨-, row, hrow, hreleased⟩ := hearlier
    obtain ⟨new, hnew, -, hrank⟩ := (h.advanced e he).requests _ row hrow
    obtain rfl := Option.some.inj (hget.symm.trans hnew)
    rw [harmed, hreleased] at hrank
    exact absurd hrank (by decide)
  · refine List.pairwise_cons.mpr ⟨fun e he id hconsumes hearlier => ?_, h.consumedOnce⟩
    obtain ⟨-, row, hrow, hconsumed⟩ := hearlier
    obtain ⟨new, hnew, hconsumed'⟩ := (h.advanced e he).consumed _ row hrow hconsumed
    exact hconsumes.1 new hnew hconsumed'

theorem Inv.exec (env : RepositoryEnv) (acts : List (Action ι)) : Inv env (Run.exec env acts) := by
  have hrun : ∀ r, Inv env r → Inv env (acts.foldl (Run.step env) r) := by
    induction acts with
    | nil => exact fun r h => h
    | cons a acts ih => exact fun r h => ih _ (h.step a)
  have hnone : ∀ newer (e : Entry ι) older, [] ≠ newer ++ e :: older := by simp
  exact hrun _ ⟨.empty, List.forall_mem_nil _, List.forall_mem_nil _, fun _ _ h => (nomatch h),
    fun newer e older _ hlog => absurd hlog (hnone newer e older), .nil, .nil⟩

/-- One live execution per intent, over what has happened. -/
structure SingleExecution (r : Run ι) : Prop where
  live : ∀ id id' row row', r.tables.requests.get? id = some row →
    r.tables.requests.get? id' = some row' → row.intentKey = row'.intentKey →
    row.safetyLease.live → row'.safetyLease.live → id = id'
  releasedOnce : r.log.Pairwise fun e e' => ∀ id, e.Releases id → ¬ e'.Releases id
  released : ∀ newer e older id, r.log = newer ++ e :: older → e.Releases id → RightlyReleased e older id
  /-- A release that the repository has granted is the release of a request. -/
  granted : ∀ e ∈ r.log, ∀ id version runId attemptId claim,
    e.action = .releaseArmedExecutionRequest id version runId attemptId → e.reply = .ok (.claim claim) →
    e.Releases id
  created : ∀ key, r.tables.created key ≤ 1 + r.tables.consumed key
  kept : ∀ e ∈ r.log, e.after.requests.All fun id row =>
    ∃ row', r.tables.requests.get? id = some row' ∧ row'.intentKey = row.intentKey
  consumedOnce : r.log.Pairwise fun e e' => ∀ id, e.Consumes id → ¬ e'.Consumes id
  consumed : ∀ e ∈ r.log, ∀ id, e.Consumes id → RightlyConsumed e id
  agree : r.tables.requests.All fun _ row => row.safetyLease = row.state.lease

theorem single_execution (env : RepositoryEnv) (acts : List (Action ι)) :
    SingleExecution (Run.exec env acts) := by
  have h := Inv.exec env acts
  generalize Run.exec env acts = r at h
  refine ⟨h.tables.live, h.releasedOnce, h.released, ?_, h.tables.counted, ?_, h.consumedOnce, ?_, ?_⟩
  · rintro ⟨a, reply, before, after⟩ he id version runId attemptId claim rfl rfl
    obtain ⟨hinv, hexec⟩ : before.Inv ∧ before.exec env _ = (_, after) := h.sound _ he
    cases Tables.exec_cases hinv.keyed hexec with
    | wrote hget hwrites =>
      cases hwrites with
      | released old execution hstate hlease hrun hexecution hidentified =>
        refine ⟨fun row hrow hreleased => ?_, _, (Tables.get?_setRequest ..).trans (if_pos rfl), rfl⟩
        obtain rfl := Option.some.inj (hget.symm.trans hrow)
        rw [hstate] at hreleased
        cases hreleased
  · intro e he id row hget
    obtain ⟨row', hrow', hfollows⟩ := (h.advanced e he).requests id row hget
    exact ⟨row', hrow', hfollows.intentKey⟩
  · intro e he id hconsumes
    obtain ⟨hinv, hexec⟩ := h.sound e he
    obtain ⟨hbefore, row, hafter, hconsumed⟩ := hconsumes
    obtain ⟨request, draw, key, approval, hact, rfl, hstored, hkey, hissued, hunexpired, source, hsource,
      hsame, hterminal, hclosed, hevidence⟩ :=
        (Tables.exec_cases hinv.keyed hexec).consumes hbefore hafter hconsumed
    exact ⟨request, draw, approval, source, hact, hstored, hissued, hunexpired, hsource,
      hsame.trans hkey.symm, hterminal, hclosed, hevidence⟩
  · exact fun id row hget => (h.tables.consistent id row hget).lease

end Run
end QuantAgent.AIBacktest
