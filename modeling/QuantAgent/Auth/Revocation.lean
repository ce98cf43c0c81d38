import QuantAgent.Auth.Requests

namespace QuantAgent.Auth
set_option autoImplicit true

open AuthSessionStore

/-- What a method meets: its commands are allowed by `P`, and a value it returns is as `Q` says. -/
def AuthM.Meets (P : List AuthExchange → RedisCommand → Prop) (Q : List AuthExchange → α → Prop)
    (log : List AuthExchange) (m : AuthM α) : Prop :=
  Prog.Meets P (fun log r => ∀ a, r = .ok a → Q log a) log m.run

section Rules
variable {P : List AuthExchange → RedisCommand → Prop}

theorem AuthM.Meets.of_return {Q : List AuthExchange → α → Prop} (h : Q log a) :
    AuthM.Meets P Q log (return a : AuthM α) := by
  intro a' ha
  cases ha
  exact h

theorem AuthM.Meets.of_throw {Q : List AuthExchange → α → Prop} (error : AppError) :
    AuthM.Meets P Q log (throw error : AuthM α) := nofun

theorem AuthM.Meets.of_bind {Q : List AuthExchange → β → Prop} {m : AuthM α} {f : α → AuthM β}
    (h : m.Meets P (fun log a => (f a).Meets P Q log) log) : (m >>= f).Meets P Q log := by
  refine Prog.Meets.bind (Prog.Meets.mono h fun log r hr => ?_)
  cases r with
  | ok a => exact hr a rfl
  | error error => exact nofun

theorem AuthM.Meets.of_ask {Q : List AuthExchange → RedisReply c → Prop} (hP : P log c)
    (hQ : ∀ r, Q (log ++ [⟨c, r⟩]) r) : (ask c).Meets P Q log := by
  refine ⟨hP, fun r a ha => ?_⟩
  cases ha
  exact hQ r

theorem AuthM.Meets.mono {Q Q' : List AuthExchange → α → Prop} {m : AuthM α} (h : m.Meets P Q log)
    (hQ : ∀ log a, Q log a → Q' log a) : m.Meets P Q' log :=
  Prog.Meets.mono h fun log _ hr a ha => hQ log a (hr a ha)

theorem AuthM.Meets.of_getJson {Q : List AuthExchange → Option JsonValue → Prop}
    (hP : P log (.get key)) (hnone : ∀ log, Q log none)
    (hsome : ∀ e value, e.value = .json value → Q (log ++ [⟨.get key, some (some e)⟩]) (some value)) :
    (getJson key).Meets P Q log := by
  refine .of_bind (.of_ask hP fun r => ?_)
  rcases r with _ | _ | ⟨value, deadline, stamp⟩
  · exact .of_throw _
  · exact .of_return (hnone _)
  · cases value with
    | undecodable => exact .of_throw _
    | json value =>
      cases value with
      | scalar x =>
        cases x with
        | null => exact .of_return (hnone _)
        | _ => exact .of_return (hsome _ _ rfl)
      | _ => exact .of_return (hsome _ _ rfl)

/-- A command whose reply is only checked for being acknowledged. -/
theorem AuthM.Meets.of_setJson {Q : List AuthExchange → Unit → Prop}
    (hP : P log (.set key payload ttlSeconds)) (hQ : ∀ r, Q (log ++ [⟨.set key payload ttlSeconds, r⟩]) ()) :
    (setJson key payload ttlSeconds).Meets P Q log := by
  refine .of_bind (.of_ask hP fun r => ?_)
  cases r with
  | true => exact .of_return (hQ true)
  | false => exact .of_throw _

theorem AuthM.Meets.of_expire {Q : List AuthExchange → Unit → Prop}
    (hP : P log (.expire key (max 1 ttlSeconds)))
    (hQ : ∀ r, Q (log ++ [⟨.expire key (max 1 ttlSeconds), r⟩]) ()) :
    (expire key ttlSeconds).Meets P Q log := by
  refine .of_bind (.of_ask hP fun r => ?_)
  cases r with
  | true => exact .of_return (hQ true)
  | false => exact .of_throw _

theorem AuthM.Meets.of_delete {Q : List AuthExchange → Unit → Prop}
    (hP : P log (.delete keys)) (hQ : ∀ r, Q (log ++ [⟨.delete keys, r⟩]) ()) :
    (delete keys).Meets P Q log := by
  refine .of_bind (.of_ask hP fun r => ?_)
  cases r with
  | true => exact .of_return (hQ true)
  | false => exact .of_throw _

theorem AuthM.Meets.of_revokeSession {Q : List AuthExchange → Unit → Prop}
    (hP : P log (.delete [sessionKey sessionId, csrfKey sessionId])) (hQ : ∀ log, Q log ()) :
    (revokeSession sessionId).Meets P Q log := by
  by_cases hid : sessionId = ""
  · rw [revokeSession, if_pos hid]
    exact .of_return (hQ _)
  · rw [revokeSession, if_neg hid]
    exact .of_delete hP fun _ => hQ _

end Rules

/-- The end of the session that a stored payload names. -/
def expiry : RedisValue → Option ℤ
  | .json (.obj fields) => (sessionTimes fields).map fun times => times.2.2
  | _ => none

def RedisCommand.writtenKey? : RedisCommand → Option String
  | .set key _ _ => some key
  | _ => none

/-- A read that found the entry `e`. -/
def found (key : String) (e : RedisEntry) : AuthExchange := ⟨.get key, some (some e)⟩

/-- A call may write the payload it has read back under its key, with the same end. -/
def WritesBack (sessionId : String) (log : List AuthExchange) (c : RedisCommand) : Prop :=
  ∀ key value ex, c = .set key value ex → key = sessionKey sessionId ∧
    ∃ e rest, log = found key e :: rest ∧ expiry (.json value) = expiry e.value

/-- A session was found, and the clock read before its end. -/
def InTime (sessionId : String) (log : List AuthExchange) : Prop :=
  ∃ (e : RedisEntry) (now : ℤ) (rest : List AuthExchange) (absoluteExpiresAt : ℤ),
    log = found (sessionKey sessionId) e :: ⟨.time, now⟩ :: rest ∧
      expiry e.value = some absoluteExpiresAt ∧ now < absoluteExpiresAt

theorem lookup_setField (fields : List (String × JsonScalar)) (key key' : String) (value : JsonScalar) :
    (setField fields key value).lookup key' =
      if key' = key then (fields.lookup key').map fun _ => value else fields.lookup key' := by
  induction fields with
  | nil => simp [setField]
  | cons field fields ih =>
    obtain ⟨k, v⟩ := field
    rw [setField, List.map_cons, ← setField]
    by_cases hk : k = key
    · subst hk
      by_cases hk' : key' = k
      · subst hk'
        simp
      · have hne : (key' == k) = false := beq_false_of_ne hk'
        simp [List.lookup_cons, hne, ih, hk']
    · by_cases hk' : key' = k
      · subst hk'
        simp [hk]
      · have hne : (key' == k) = false := beq_false_of_ne hk'
        simp [List.lookup_cons, hk, hne, ih]

/-- A touch moves `last_seen_at` only. -/
theorem sessionTimes_touch (h : sessionTimes fields = some (createdAt, lastSeenAt, absoluteExpiresAt)) :
    sessionTimes (setField fields "last_seen_at" (.int now)) = some (createdAt, now, absoluteExpiresAt) := by
  simp only [sessionTimes, Option.bind_eq_bind, Option.bind_eq_some_iff, Option.pure_def] at h ⊢
  obtain ⟨created, hcreated, c, hc, seen, hseen, l, hl, absolute, habsolute, a, ha, heq⟩ := h
  cases heq
  have hother : ∀ key, key ≠ "last_seen_at" →
      (setField fields "last_seen_at" (.int now)).lookup key = fields.lookup key := by
    intro key hne
    rw [lookup_setField, if_neg hne]
  refine ⟨created, ?_, _, hc, .int now, ?_, now, rfl, absolute, ?_, _, ha, rfl⟩
  · rw [hother _ (by decide), hcreated]
  · rw [lookup_setField, if_pos rfl, hseen]
    rfl
  · rw [hother _ (by decide), habsolute]

theorem getSessionUserId_meets (settings : AuthSettings) (sessionId : String) :
    (getSessionUserId settings sessionId).Meets (WritesBack sessionId)
      (fun log r => ∀ userId, r = some userId → InTime sessionId log) [] := by
  have hrevoke : ∀ log, (do revokeSession sessionId; return none : AuthM (Option JsonScalar)).Meets
      (WritesBack sessionId) (fun log r => ∀ userId, r = some userId → InTime sessionId log) log :=
    fun log => .of_bind (.of_revokeSession nofun fun _ => .of_return nofun)
  rw [getSessionUserId]
  split
  · exact .of_return nofun
  · refine .of_bind (.of_getJson nofun (fun _ => .of_return nofun) fun e value hvalue => ?_)
    cases value with
    | scalar x => exact .of_return nofun
    | other truthy => exact .of_return nofun
    | obj fields =>
      dsimp only
      split
      · exact hrevoke _
      · split
        · exact hrevoke _
        · rename_i createdAt lastSeenAt absoluteExpiresAt htimes
          have hend : expiry e.value = some absoluteExpiresAt := by
            rw [hvalue, expiry, htimes]
            rfl
          split
          · exact hrevoke _
          · refine .of_bind (.of_ask nofun fun (now : ℤ) => ?_)
            split
            · exact hrevoke _
            · rename_i hlater
              have htime : ∀ rest, InTime sessionId ([found (sessionKey sessionId) e, ⟨.time, now⟩] ++ rest) :=
                fun rest => ⟨e, now, rest, absoluteExpiresAt, rfl, hend, not_le.mp hlater⟩
              split
              · exact hrevoke _
              · split
                · split
                  · exact hrevoke _
                  · refine .of_bind (.of_setJson ?_ fun written => ?_)
                    · rintro key value ex ⟨⟩
                      refine ⟨rfl, e, [⟨.time, now⟩], rfl, ?_⟩
                      rw [hend, expiry, sessionTimes_touch htimes]
                      rfl
                    · exact .of_bind (.of_expire nofun fun prolonged => .of_return fun _ _ => htime [_, _])
                · exact .of_return fun _ _ => htime []

/-- The writes a request may send. -/
def AuthRequest.MaySend (log : List AuthExchange) (c : RedisCommand) : AuthRequest → Prop
  | .storeOauthState state _ _ _ _ _ => ∀ key value ex, c = .set key value ex → key = stateKey state
  | .consumeOauthState _ => ∀ key value ex, c ≠ .set key value ex
  | .rotateSession _ _ => True
  | .getSessionUserId sessionId => WritesBack sessionId log c
  | .revokeSession _ => ∀ key value ex, c ≠ .set key value ex

theorem AuthM.Meets.answering {P : List AuthExchange → RedisCommand → Prop}
    {Q : List AuthExchange → α → Prop} {m : AuthM α} (h : m.Meets P Q log) (wrap : α → Answer) :
    Prog.Meets P (fun log r => ∀ answer, r = .ok answer → ∃ a, answer = wrap a ∧ Q log a) log
      (m.answering wrap) := by
  refine Prog.Meets.bind (Prog.Meets.mono h fun log r hr => ?_)
  cases r with
  | ok a =>
    intro answer hanswer
    cases hanswer
    exact ⟨a, rfl, hr a rfl⟩
  | error error => exact nofun

theorem AuthM.Meets.of_true (m : AuthM α) : m.Meets (fun _ _ => True) (fun _ _ => True) log := by
  suffices h : ∀ (p : Prog RedisCommand RedisReply (Except AppError α)) log,
      Prog.Meets (fun _ _ => True) (fun _ r => ∀ a, r = .ok a → True) log p from h _ log
  intro p
  induction p with
  | done a => exact fun _ _ _ => trivial
  | call c next ih => exact fun _ => ⟨trivial, fun r => ih r _⟩

/-- What a request's answer says about its exchanges. -/
def AuthRequest.Answers (log : List AuthExchange) (answer : Answer) : AuthRequest → Prop
  | .getSessionUserId sessionId => ∀ userId, answer = .user (some userId) → InTime sessionId log
  | _ => True

theorem AuthRequest.program_meets (settings : AuthSettings) (request : AuthRequest) :
    Prog.Meets (fun log c => request.MaySend log c)
      (fun log r => ∀ answer, r = .ok answer → request.Answers log answer) [] (request.program settings) := by
  have hweak : ∀ {α : Type} {Q : List AuthExchange → α → Prop} (m : AuthM α) (wrap : α → Answer),
      m.Meets (fun log c => request.MaySend log c) Q [] →
      (∀ log a, Q log a → request.Answers log (wrap a)) →
      Prog.Meets (fun log c => request.MaySend log c)
        (fun log r => ∀ answer, r = .ok answer → request.Answers log answer) [] (m.answering wrap) := by
    intro α Q m wrap hm hQ
    refine Prog.Meets.mono (hm.answering wrap) fun log r hr answer hanswer => ?_
    obtain ⟨a, rfl, ha⟩ := hr answer hanswer
    exact hQ log a ha
  cases request with
  | storeOauthState state nonce returnTo redirectUri flowMode transactionTokenHash =>
    refine hweak (Q := fun _ _ => True) _ _ (.of_setJson ?_ fun _ => trivial) fun _ _ _ => trivial
    rintro key value ex ⟨⟩
    rfl
  | consumeOauthState state =>
    refine hweak (Q := fun _ _ => True) _ _ ?_ fun _ _ _ => trivial
    refine .of_bind (.of_getJson nofun (fun _ => .of_throw _) fun e value hvalue => ?_)
    exact .of_bind (.of_delete nofun fun _ => .of_return trivial)
  | rotateSession userId previous => exact hweak _ _ (.of_true _) fun _ _ _ => trivial
  | getSessionUserId sessionId =>
    refine hweak _ _ (getSessionUserId_meets settings sessionId) fun log a ha userId hanswer => ?_
    cases hanswer
    exact ha userId rfl
  | revokeSession sessionId =>
    exact hweak (Q := fun _ _ => True) _ _ (.of_revokeSession nofun fun _ => trivial) fun _ _ _ => trivial

/-- The user a call has answered. -/
def AuthCall.user? (call : AuthCall) : Option JsonScalar :=
  match call.program with
  | .done (.ok (.user userId)) => userId
  | _ => none

theorem AuthCall.program_of_user? {call : AuthCall} (h : call.user? = some userId) :
    call.program = .done (.ok (.user (some userId))) := by
  rw [AuthCall.user?] at h
  split at h
  · rename_i hprogram
    rw [hprogram, h]
  · cases h

namespace AuthSystem
variable {κ : Type}

/-- A session has the end `a`: it was stored so before the run, or by a `rotate_session` call of it. -/
def Ends (s₀ s : AuthSystem κ) (sessionId : String) (a : ℤ) : Prop :=
  (∃ e, s₀.redis.entries.get? (sessionKey sessionId) = some e ∧ expiry e.value = some a) ∨
    ∃ c call userId previous value ex reply, s.calls c = some call ∧
      call.request = .rotateSession userId previous ∧
      (⟨.set (sessionKey sessionId) value ex, reply⟩ : AuthExchange) ∈ call.log ∧
      expiry (.json value) = some a

/-- Every session that is stored, or has been read, has the end it was given. -/
structure SessionEnds (settings : AuthSettings) (s₀ s : AuthSystem κ) : Prop where
  tracked : s.Tracked settings
  stored : ∀ sessionId e a, s.redis.entries.get? (sessionKey sessionId) = some e →
    expiry e.value = some a → s₀.Ends s sessionId a
  read : ∀ c call sessionId e rest a, s.calls c = some call →
    call.request = .getSessionUserId sessionId → call.log = found (sessionKey sessionId) e :: rest →
    expiry e.value = some a → s₀.Ends s sessionId a

/-- A deleted session is not stored, and no call that came in since has read it. -/
structure StaysRevoked (s : AuthSystem κ) : Prop where
  absent : ∀ sessionId, sessionKey sessionId ∈ s.deleted →
    s.redis.entries.get? (sessionKey sessionId) = none
  forgotten : ∀ c call, s.calls c = some call → call.forgotten ⊆ s.deleted
  unread : ∀ c call sessionId e rest, s.calls c = some call →
    call.request = .getSessionUserId sessionId → sessionKey sessionId ∈ call.forgotten →
    call.log ≠ found (sessionKey sessionId) e :: rest

/-- No session is written under a key whose deletion has been acknowledged. -/
def WritesNoRevoked (s : AuthSystem κ) : AuthAction κ → Prop
  | .deliver c delivery _ => ∀ sessionId value ex,
      s.pending c = some (.set (sessionKey sessionId) value ex) → delivery ≠ .lost →
      sessionKey sessionId ∉ s.deleted
  | _ => True

theorem SessionEnds.initial {s₀ : AuthSystem κ} (h : s₀.Initial) : SessionEnds settings s₀ s₀ where
  tracked c call hc := by
    rw [h.calls] at hc
    cases hc
  stored sessionId e a he ha := .inl ⟨e, he, ha⟩
  read c call sessionId e rest a hc := by
    rw [h.calls] at hc
    cases hc

theorem StaysRevoked.initial {s₀ : AuthSystem κ} (h : s₀.Initial) : s₀.StaysRevoked where
  absent sessionId hk := by
    rw [h.deleted] at hk
    cases hk
  forgotten c call hc := by
    rw [h.calls] at hc
    cases hc
  unread c call sessionId e rest hc := by
    rw [h.calls] at hc
    cases hc

variable [DecidableEq κ]

theorem Ends.step {s₀ s s' : AuthSystem κ} (h : s₀.Ends s sessionId a)
    (hstep : Stepped settings s act s') : s₀.Ends s' sessionId a := by
  rcases h with hbefore | ⟨c, call, userId, previous, value, ex, reply, hc, hrequest, hmem, ha⟩
  · exact .inl hbefore
  · obtain ⟨call', hc', hrequest', hlog⟩ := hstep.calls hc
    exact .inr ⟨c, call', userId, previous, value, ex, reply, hc', hrequest'.trans hrequest, hlog hmem, ha⟩

theorem sessionKey_ne_stateKey (sessionId state : String) : sessionKey sessionId ≠ stateKey state := by
  intro h
  have hlist := congrArg (fun key : String => key.toList.take 10) h
  have hsession : (sessionKey sessionId).toList = "qa:auth:session:".toList ++ sessionId.toList :=
    String.toList_append
  have hstate : (stateKey state).toList = "qa:auth:state:".toList ++ state.toList :=
    String.toList_append
  rw [hsession, hstate, List.take_append_of_le_length (by decide),
    List.take_append_of_le_length (by decide)] at hlist
  exact absurd hlist (by decide)

theorem sessionKey_injective : Function.Injective sessionKey := fun a b h => by
  have hkey : ∀ id, (sessionKey id).toList = "qa:auth:session:".toList ++ id.toList :=
    fun _ => String.toList_append
  have hlist := congrArg String.toList h
  rw [hkey, hkey] at hlist
  exact String.toList_inj.mp (List.append_cancel_left hlist)
theorem SessionEnds.step {s₀ s s' : AuthSystem κ} (h : SessionEnds settings s₀ s)
    (hstep : Stepped settings s act s') : SessionEnds settings s₀ s' := by
  have htracked := h.tracked.step hstep
  have hends : ∀ sessionId a, s₀.Ends s sessionId a → s₀.Ends s' sessionId a :=
    fun _ _ hends => hends.step hstep
  cases hstep with
  | tick => exact ⟨htracked, h.stored, h.read⟩
  | idle => exact h
  | @start d request hnone =>
    refine ⟨htracked, fun sessionId e a he ha => hends _ _ (h.stored sessionId e a he ha), ?_⟩
    intro c call sessionId e rest a hc hrequest hlog ha
    rcases update_eq_some hc with ⟨rfl, rfl⟩ | ⟨_, hc⟩
    · cases hlog
    · exact hends _ _ (h.read c call sessionId e rest a hc hrequest hlog ha)
  | @deliver command d request forgotten log delivery token reply after next hcall hexec =>
    have hsend : request.MaySend log command :=
      ((request.program_meets settings).of_reaches (h.tracked d _ hcall)).1
    refine ⟨htracked, fun sessionId e a he ha => ?_, fun c call sessionId e rest a hc hrequest hlog ha => ?_⟩
    · rcases (Redis.exec_entries hexec).2 _ e he with
        ⟨e₀, he₀, -, hvalue⟩ | ⟨-, -, value, ex, rfl, hvalue, -⟩
      · exact hends _ _ (h.stored sessionId e₀ a he₀ (hvalue ▸ ha))
      · rw [hvalue] at ha
        cases request with
        | storeOauthState state _ _ _ _ _ =>
          exact absurd (hsend _ _ _ rfl) (sessionKey_ne_stateKey sessionId state)
        | consumeOauthState state => exact absurd rfl (hsend _ _ _)
        | revokeSession sessionId' => exact absurd rfl (hsend _ _ _)
        | rotateSession userId previous =>
          exact .inr ⟨d, _, userId, previous, value, ex, reply, Function.update_self .., rfl,
            List.mem_append_right _ (List.mem_singleton_self _), ha⟩
        | getSessionUserId sessionId' =>
          obtain ⟨hkey, e', rest, rfl, hend⟩ := hsend _ _ _ rfl
          obtain rfl := sessionKey_injective hkey
          exact hends _ _ (h.read d _ sessionId e' rest a hcall rfl rfl (hend ▸ ha))
    · rcases update_eq_some hc with ⟨rfl, rfl⟩ | ⟨_, hc⟩
      · cases log with
        | nil =>
          cases hlog
          have hlive := (Redis.exec_get hexec).2 e rfl
          exact hends _ _ (h.stored sessionId e a (Redis.live_some hlive) ha)
        | cons x log =>
          cases hlog
          exact hends _ _ (h.read c _ sessionId e log a hcall hrequest rfl ha)
      · exact hends _ _ (h.read c call sessionId e rest a hc hrequest hlog ha)

theorem StaysRevoked.step {s s' : AuthSystem κ} (h : s.StaysRevoked) (hfresh : s.WritesNoRevoked act)
    (hstep : Stepped settings s act s') : s'.StaysRevoked := by
  cases hstep with
  | tick => exact ⟨h.absent, h.forgotten, h.unread⟩
  | idle => exact h
  | @start d request hnone =>
    refine ⟨h.absent, fun c call hc => ?_, fun c call sessionId e rest hc hrequest hold hlog => ?_⟩
    · rcases update_eq_some hc with ⟨rfl, rfl⟩ | ⟨_, hc⟩
      · exact List.Subset.refl _
      · exact h.forgotten c call hc
    · rcases update_eq_some hc with ⟨rfl, rfl⟩ | ⟨_, hc⟩
      · cases hlog
      · exact h.unread c call sessionId e rest hc hrequest hold hlog
  | @deliver command d request forgotten log delivery token reply after next hcall hexec =>
    refine ⟨fun sessionId hk => ?_, fun c call hc => ?_,
      fun c call sessionId e rest hc hrequest hold hlog => ?_⟩
    · by_cases hgone : sessionKey sessionId ∈ s.deleted
      · rw [Option.eq_none_iff_forall_ne_some]
        intro e he
        rcases (Redis.exec_entries hexec).2 _ e he with
          ⟨e₀, he₀, -⟩ | ⟨-, -, value, ex, rfl, -, hlost⟩
        · rw [h.absent sessionId hgone] at he₀
          cases he₀
        · exact hfresh sessionId value ex (by simp only [pending, hcall]) hlost hgone
      · have hnew := (List.mem_append.mp hk).resolve_right hgone
        cases command with
        | delete keys =>
          cases reply with
          | true => exact Redis.exec_delete hexec hnew
          | false => cases hnew
        | _ => cases hnew
    · rcases update_eq_some hc with ⟨rfl, rfl⟩ | ⟨_, hc⟩
      · have hbefore : forgotten ⊆ s.deleted := h.forgotten c _ hcall
        exact List.subset_append_of_subset_right _ hbefore
      · exact List.subset_append_of_subset_right _ (h.forgotten c call hc)
    · rcases update_eq_some hc with ⟨rfl, rfl⟩ | ⟨_, hc⟩
      · cases log with
        | nil =>
          cases hlog
          have hlive := Redis.live_some ((Redis.exec_get hexec).2 e rfl)
          rw [h.absent sessionId (h.forgotten c _ hcall hold)] at hlive
          cases hlive
        | cons x log =>
          cases hlog
          exact h.unread c _ sessionId e log hcall hrequest hold rfl
      · exact h.unread c call sessionId e rest hc hrequest hold hlog

/-- A request that authenticates has read the clock before the end its session was given. In a run
that writes no session under a deleted key, it came in before any deletion of its session was
acknowledged. -/
theorem authenticated_live_session {s₀ : AuthSystem κ} (hinit : s₀.Initial)
    (acts : List (AuthAction κ)) :
    (∀ c call sessionId userId, (s₀.exec settings acts).calls c = some call →
      call.request = .getSessionUserId sessionId →
      call.program = .done (.ok (.user (some userId))) →
      ∃ (now absoluteExpiresAt : ℤ), (⟨.time, now⟩ : AuthExchange) ∈ call.log ∧
        s₀.Ends (s₀.exec settings acts) sessionId absoluteExpiresAt ∧ now < absoluteExpiresAt) ∧
    (RunMeeting settings WritesNoRevoked s₀ acts →
      ∀ c call sessionId userId, (s₀.exec settings acts).calls c = some call →
        call.request = .getSessionUserId sessionId →
        call.program = .done (.ok (.user (some userId))) → sessionKey sessionId ∉ call.forgotten) := by
  have hsession : SessionEnds settings s₀ (s₀.exec settings acts) :=
    (RunMeeting.of_true acts).preserves (fun s a h _ => h.step (stepped settings s a)) (.initial hinit)
  have hanswer : ∀ c call sessionId userId, (s₀.exec settings acts).calls c = some call →
      call.request = .getSessionUserId sessionId →
      call.program = .done (.ok (.user (some userId))) → InTime sessionId call.log := by
    intro c call sessionId userId hc hrequest hdone
    obtain ⟨request, forgotten, log, program⟩ := call
    obtain rfl : request = .getSessionUserId sessionId := hrequest
    obtain rfl : program = .done (.ok (.user (some userId))) := hdone
    have hmeets := ((AuthRequest.getSessionUserId sessionId).program_meets settings).of_reaches
      (hsession.tracked c _ hc)
    exact hmeets _ rfl userId rfl
  refine ⟨fun c call sessionId userId hc hrequest hdone => ?_,
    fun hrun c call sessionId userId hc hrequest hdone hold => ?_⟩
  · obtain ⟨e, now, rest, absoluteExpiresAt, hlog, hend, hlt⟩ :=
      hanswer c call sessionId userId hc hrequest hdone
    refine ⟨now, absoluteExpiresAt, ?_,
      hsession.read c call sessionId e _ absoluteExpiresAt hc hrequest hlog hend, hlt⟩
    rw [hlog]
    exact List.mem_cons_of_mem _ (List.mem_cons_self ..)
  · have hrevoked : (s₀.exec settings acts).StaysRevoked :=
      hrun.preserves (fun s a h hfresh => h.step hfresh (stepped settings s a)) (.initial hinit)
    obtain ⟨e, now, rest, _, hlog, _⟩ := hanswer c call sessionId userId hc hrequest hdone
    exact hrevoked.unread c call sessionId e _ hc hrequest hold hlog

omit [DecidableEq κ] in
theorem WritesNoRevoked.of_writtenKey {s : AuthSystem κ}
    (h : ((s.pending c).bind RedisCommand.writtenKey?).all fun key => decide (key ∉ s.deleted)) :
    s.WritesNoRevoked (.deliver c delivery token) := by
  intro sessionId value ex hpending _ hk
  rw [hpending] at h
  exact of_decide_eq_true h hk

/-- Request 0 logs in, 1 is authenticated, 2 logs out and 3 asks again. -/
def loginThenLogout : List (AuthAction (Fin 4)) :=
  [.start 0 (.rotateSession "7" none), .deliver 0 .done "id", .deliver 0 .done "csrf",
    .deliver 0 .done "", .deliver 0 .done "family", .deliver 0 .done "", .deliver 0 .done "",
    .start 1 (.getSessionUserId "id"), .deliver 1 .done "", .deliver 1 .done "",
    .start 2 (.revokeSession "id"), .deliver 2 .done "",
    .start 3 (.getSessionUserId "id"), .deliver 3 .done ""]

theorem authenticated_live_session_logout :
    ∃ call, ((idle 1000).exec AuthSettings.defaults loginThenLogout).calls 1 = some call ∧
      call.user? = some (.str "7") ∧ sessionKey "id" ∉ call.forgotten := by
  have hwrite : ∀ s : AuthSystem (Fin 4), ∀ c delivery token, (((s.pending c).bind
      RedisCommand.writtenKey?).all fun key => decide (key ∉ s.deleted)) = true →
      s.WritesNoRevoked (.deliver c delivery token) := fun _ _ _ _ h => .of_writtenKey h
  have hrun : RunMeeting AuthSettings.defaults WritesNoRevoked (idle 1000) loginThenLogout := by
    unfold loginThenLogout
    repeat first
      | exact .nil
      | refine .cons trivial ?_
      | refine .cons (hwrite _ _ _ _ (by decide +kernel)) ?_
  have hcalled : (((idle 1000).exec AuthSettings.defaults loginThenLogout).calls 1).map
      (fun call => (call.request, call.user?)) =
        some (.getSessionUserId "id", some (.str "7")) := by
    decide +kernel
  obtain ⟨call, hc, hcall⟩ := Option.map_eq_some_iff.mp hcalled
  obtain ⟨hrequest, huser⟩ := by simpa only [Prod.mk.injEq] using hcall
  exact ⟨call, hc, huser, (authenticated_live_session idle_initial loginThenLogout).2 hrun 1 call "id"
    (.str "7") hc hrequest (AuthCall.program_of_user? huser)⟩

/-- The last request came in after the logout was answered, and is authenticated. -/
def touchAcrossLogout : List (AuthAction (Fin 4)) :=
  [.start 0 (.rotateSession "7" none), .deliver 0 .done "id", .deliver 0 .done "csrf",
    .deliver 0 .done "", .deliver 0 .done "family", .deliver 0 .done "", .deliver 0 .done "",
    .tick 60, .start 1 (.getSessionUserId "id"), .deliver 1 .done "", .deliver 1 .done "",
    .start 2 (.revokeSession "id"), .deliver 2 .done "", .deliver 1 .done "", .deliver 1 .done "",
    .start 3 (.getSessionUserId "id"), .deliver 3 .done "", .deliver 3 .done ""]

theorem revoked_session_authenticates :
    ¬ ∀ (s₀ : AuthSystem (Fin 4)) (acts : List (AuthAction (Fin 4))), s₀.Initial →
      ∀ c call sessionId userId, (s₀.exec AuthSettings.defaults acts).calls c = some call →
        call.request = .getSessionUserId sessionId →
        call.program = .done (.ok (.user (some userId))) → sessionKey sessionId ∉ call.forgotten := by
  intro h
  have hlast : (((idle 1000).exec AuthSettings.defaults touchAcrossLogout).calls 3).map
      (fun call => (call.request, call.forgotten, call.user?)) =
        some (.getSessionUserId "id", [sessionKey "id", csrfKey "id"], some (.str "7")) := by
    decide +kernel
  obtain ⟨call, hc, hcall⟩ := Option.map_eq_some_iff.mp hlast
  obtain ⟨hrequest, hforgotten, huser⟩ := by simpa only [Prod.mk.injEq] using hcall
  refine h (idle 1000) touchAcrossLogout idle_initial 3 call "id" (.str "7") hc hrequest
    (AuthCall.program_of_user? huser) ?_
  rw [hforgotten]
  exact List.mem_cons_self ..

end AuthSystem
end QuantAgent.Auth
