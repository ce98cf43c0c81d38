import QuantAgent.Auth.Requests

namespace QuantAgent.Auth
set_option autoImplicit true

open AuthSessionStore

/-- Where a `consume_oauth_state` call can be after its exchanges. -/
inductive ConsumePhase (state : String) : List AuthExchange → AuthProgram → Prop
  | asked (next : RedisReply (.get (stateKey state)) → AuthProgram) :
      ConsumePhase state [] (.call (.get (stateKey state)) next)
  | refused (reply : RedisReply (.get (stateKey state))) (error : AppError) :
      ConsumePhase state [⟨.get (stateKey state), reply⟩] (.done (.error error))
  | read (e : RedisEntry) (next : Bool → AuthProgram) :
      ConsumePhase state [⟨.get (stateKey state), some (some e)⟩]
        (.call (.delete [stateKey state]) next)
  | consumed (e : RedisEntry) (payload : JsonValue) :
      ConsumePhase state
        [⟨.get (stateKey state), some (some e)⟩, ⟨.delete [stateKey state], true⟩]
        (.done (.ok (.state payload)))
  | failed (e : RedisEntry) :
      ConsumePhase state
        [⟨.get (stateKey state), some (some e)⟩, ⟨.delete [stateKey state], false⟩]
        (.done (.error .redisDeleteFailed))

theorem consume_reaches (h : ((AuthRequest.consumeOauthState state).program settings).Reaches log p) :
    ConsumePhase state log p := by
  rcases Prog.Reaches.of_call h with ⟨rfl, rfl⟩ | ⟨r, rest, rfl, hnext⟩
  · exact .asked _
  · have hrefused : ∀ error, (Prog.done (.error error) : AuthProgram).Reaches rest p →
        ConsumePhase state (⟨.get (stateKey state), r⟩ :: rest) p := by
      intro error hdone
      obtain ⟨rfl, rfl⟩ := hdone.of_done
      exact .refused r error
    rcases r with _ | _ | ⟨value, deadline, stamp⟩
    · exact hrefused _ hnext
    · exact hrefused _ hnext
    · have hread : ∀ payload (next : Bool → AuthProgram),
          (Prog.call (.delete [stateKey state]) next).Reaches rest p →
          next true = .done (.ok (.state payload)) → next false = .done (.error .redisDeleteFailed) →
          ConsumePhase state
            (⟨.get (stateKey state), some (some ⟨value, deadline, stamp⟩)⟩ :: rest) p := by
        intro payload next hdelete htrue hfalse
        rcases Prog.Reaches.of_call hdelete with ⟨rfl, rfl⟩ | ⟨acknowledged, rest, rfl, hdone⟩
        · exact .read _ next
        · cases acknowledged with
          | true =>
            rw [htrue] at hdone
            obtain ⟨rfl, rfl⟩ := hdone.of_done
            exact .consumed _ payload
          | false =>
            rw [hfalse] at hdone
            obtain ⟨rfl, rfl⟩ := hdone.of_done
            exact .failed _
      cases value with
      | undecodable => exact hrefused _ hnext
      | json payload =>
        rcases payload with x | fields | truthy
        · cases x with
          | null => exact hrefused _ hnext
          | _ => exact hread _ _ hnext rfl rfl
        · exact hread _ _ hnext rfl rfl
        · exact hread _ _ hnext rfl rfl

/-- A call that returns a payload has read an entry and had its deletion acknowledged. -/
theorem ConsumePhase.of_success (h : ConsumePhase state log p)
    (hp : p = .done (.ok (.state payload))) :
    ∃ e, log = [⟨.get (stateKey state), some (some e)⟩, ⟨.delete [stateKey state], true⟩] := by
  cases h with
  | asked next => cases hp
  | refused reply error => cases hp
  | read e next => cases hp
  | consumed e payload' => exact ⟨e, rfl⟩
  | failed e => cases hp

/-- The write that a call's first command read. -/
def readStamp : List AuthExchange → Option ℕ
  | ⟨.get _, reply⟩ :: _ =>
    match reply with
    | some (some e) => some e.stamp
    | _ => none
  | _ => none

/-- What a call has consumed: a state, the write it came from and the payload. -/
def AuthCall.consumed? (call : AuthCall) : Option (String × ℕ × JsonValue) :=
  match call.request, readStamp call.log, call.program with
  | .consumeOauthState state, some n, .done (.ok (.state payload)) => some (state, n, payload)
  | _, _, _ => none

def AuthCall.failed (call : AuthCall) : Prop := ∃ e, call.program = .done (.error e)

namespace AuthSystem
variable {κ : Type}

/-- The call `c` has read what the write number `n` stored for a state. -/
def Read (s : AuthSystem κ) (c : κ) (state : String) (n : ℕ) (call : AuthCall) : Prop :=
  s.calls c = some call ∧ call.request = .consumeOauthState state ∧ readStamp call.log = some n

/-- The call `c` has consumed the state of the write number `n`. -/
def Consumed (s : AuthSystem κ) (c : κ) (state : String) (n : ℕ) : Prop :=
  ∃ call, s.Read c state n call ∧ ∃ payload, call.program = .done (.ok (.state payload))

/-- No call reads a state that another one has read and is about to delete. -/
def ReadsAlone (s : AuthSystem κ) : AuthAction κ → Prop
  | .deliver c _ _ => ∀ call state, s.calls c = some call → call.request = .consumeOauthState state →
      call.log = [] → ∀ e, s.redis.live (stateKey state) = some e →
      ∀ c' state' call', s.Read c' state' e.stamp call' → s.pending c' = none
  | _ => True

/-- Every stored state is held by one call at most, and is gone once it is consumed. -/
structure SingleUse (settings : AuthSettings) (s : AuthSystem κ) : Prop where
  tracked : s.Tracked settings
  stamps : ∀ k e, s.redis.entries.get? k = some e → e.stamp < s.redis.writes
  distinct : ∀ k k' e e', s.redis.entries.get? k = some e → s.redis.entries.get? k' = some e' →
    e.stamp = e'.stamp → k = k'
  old : ∀ c state n call, s.Read c state n call → n < s.redis.writes
  key : ∀ c state n call k e, s.Read c state n call → s.redis.entries.get? k = some e →
    e.stamp = n → k = stateKey state
  unique : ∀ c state call c' state' call' n, s.Read c state n call → s.Read c' state' n call' →
    ¬ call.failed → ¬ call'.failed → c = c'
  gone : ∀ c state n k e, s.Consumed c state n → s.redis.entries.get? k = some e → e.stamp ≠ n

theorem SingleUse.initial {s : AuthSystem κ} (h : s.Initial) : s.SingleUse settings where
  tracked c call hc := by
    rw [h.calls] at hc
    cases hc
  stamps := h.stamps
  distinct := h.distinct
  old c state n call hr := by
    rw [Read, h.calls] at hr
    cases hr.1
  key c state n call k e hr := by
    rw [Read, h.calls] at hr
    cases hr.1
  unique c state call c' state' call' n hr := by
    rw [Read, h.calls] at hr
    cases hr.1
  gone c state n k e hc := by
    obtain ⟨call, hr, -⟩ := hc
    rw [Read, h.calls] at hr
    cases hr.1

/-- The invariant only speaks of calls that have read something and of what Redis holds. -/
theorem SingleUse.of_calls {s s' : AuthSystem κ} (h : s.SingleUse settings)
    (htracked : s'.Tracked settings) (hentries : s'.redis.entries = s.redis.entries)
    (hwrites : s'.redis.writes = s.redis.writes)
    (hread : ∀ c state n call, s'.Read c state n call → s.Read c state n call) :
    s'.SingleUse settings where
  tracked := htracked
  stamps := by rw [hentries, hwrites]; exact h.stamps
  distinct := by rw [hentries]; exact h.distinct
  old c state n call hr := by
    rw [hwrites]
    exact h.old c state n call (hread _ _ _ _ hr)
  key c state n call k e hr he := by
    rw [hentries] at he
    exact h.key c state n call k e (hread _ _ _ _ hr) he
  unique c state call c' state' call' n hr hr' :=
    h.unique c state call c' state' call' n (hread _ _ _ _ hr) (hread _ _ _ _ hr')
  gone c state n k e hc he := by
    obtain ⟨call, hr, hdone⟩ := hc
    rw [hentries] at he
    exact h.gone c state n k e ⟨call, hread _ _ _ _ hr, hdone⟩ he

/-- A command that reads no state for a call keeps the invariant, if a state it lets be consumed is
gone from Redis. -/
theorem SingleUse.of_exec {s s' : AuthSystem κ} (h : s.SingleUse settings)
    (htracked : s'.Tracked settings) (hexec : s.redis.exec delivery token c = (reply, s'.redis))
    (hread : ∀ c state n call', s'.Read c state n call' →
      ∃ call, s.Read c state n call ∧ (call.failed → call'.failed))
    (hgone : ∀ c state n, s'.Consumed c state n → s.Consumed c state n ∨
      ∀ k e, s'.redis.entries.get? k = some e → e.stamp ≠ n) : s'.SingleUse settings := by
  obtain ⟨hwrites, hentries⟩ := Redis.exec_entries hexec
  have hold : ∀ c state n call', s'.Read c state n call' → ∀ k e,
      s'.redis.entries.get? k = some e → e.stamp = n →
      ∃ call e₀, s.Read c state n call ∧ s.redis.entries.get? k = some e₀ ∧ e₀.stamp = n := by
    intro c state n call' hr k e he hn
    obtain ⟨call, hcall, -⟩ := hread c state n call' hr
    have hlt := h.old c state n call hcall
    rcases hentries k e he with ⟨e₀, he₀, hstamp, -⟩ | ⟨hnew, -, -⟩
    · exact ⟨call, e₀, hcall, he₀, hstamp.trans hn⟩
    · omega
  refine ⟨htracked, fun k e he => ?_, fun k k' e e' he he' hstamp => ?_, fun c state n call' hr => ?_,
    fun c state n call' k e hr he hn => ?_, fun c state call c' state' call' n hr hr' hf hf' => ?_,
    fun c state n k e hc he hn => ?_⟩
  · rcases hentries k e he with ⟨e₀, he₀, hstamp, -⟩ | ⟨hnew, hnext, -⟩
    · have hlt := h.stamps k e₀ he₀
      omega
    · omega
  · rcases hentries k e he with ⟨e₀, he₀, hs, -⟩ | ⟨hnew, -, value, ex, rfl, -⟩ <;>
      rcases hentries k' e' he' with ⟨e₀', he₀', hs', -⟩ | ⟨hnew', -, value', ex', hset, -⟩
    · exact h.distinct k k' e₀ e₀' he₀ he₀' (by omega)
    · have hlt := h.stamps k e₀ he₀
      omega
    · have hlt := h.stamps k' e₀' he₀'
      omega
    · cases hset
      rfl
  · obtain ⟨call, hcall, -⟩ := hread c state n call' hr
    exact (h.old c state n call hcall).trans_le hwrites
  · obtain ⟨call, e₀, hcall, he₀, hn₀⟩ := hold c state n call' hr k e he hn
    exact h.key c state n call k e₀ hcall he₀ hn₀
  · obtain ⟨call₀, hcall, hfailed⟩ := hread c state n call hr
    obtain ⟨call₀', hcall', hfailed'⟩ := hread c' state' n call' hr'
    exact h.unique c state call₀ c' state' call₀' n hcall hcall' (fun hx => hf (hfailed hx))
      fun hx => hf' (hfailed' hx)
  · rcases hgone c state n hc with hbefore | hafter
    · obtain ⟨call', hr, -⟩ := hc
      obtain ⟨call, e₀, -, he₀, hn₀⟩ := hold c state n call' hr k e he hn
      exact h.gone c state n k e₀ hbefore he₀ hn₀
    · exact hafter k e he hn

/-- A call that is done, or still holds a state, has had the phases of `consume_oauth_state`. -/
theorem Read.phase {s : AuthSystem κ} (htracked : s.Tracked settings) (h : s.Read c state n call) :
    call.failed ∨ s.Consumed c state n ∨ s.pending c = some (.delete [stateKey state]) := by
  obtain ⟨hc, hrequest, hread⟩ := h
  obtain ⟨request, forgotten, log, program⟩ := call
  subst hrequest
  have hphase := consume_reaches (htracked c _ hc)
  cases hphase with
  | asked next => cases hread
  | refused reply error => exact .inl ⟨error, rfl⟩
  | read e next =>
    right; right
    simp only [pending, hc]
  | consumed e payload => exact .inr (.inl ⟨_, ⟨hc, rfl, hread⟩, payload, rfl⟩)
  | failed e => exact .inl ⟨_, rfl⟩

variable [DecidableEq κ]

/-- The state of the system after the next command of the call `d` got its reply. -/
def answered (s : AuthSystem κ) (d : κ) (call : AuthCall) (after : Redis) (keys : List String) :
    AuthSystem κ := ⟨after, Function.update s.calls d (some call), keys⟩

theorem Read.of_answered {s : AuthSystem κ} (h : (s.answered d call' after keys).Read c state n call) :
    c = d ∧ call = call' ∨ c ≠ d ∧ s.Read c state n call := by
  rcases update_eq_some h.1 with ⟨hc, hcall⟩ | ⟨hne, hc⟩
  · exact .inl ⟨hc, hcall.symm⟩
  · exact .inr ⟨hne, hc, h.2⟩

/-- A call that has read something goes on without reading: it holds the same write as before. -/
theorem SingleUse.of_reply {s : AuthSystem κ} (h : s.SingleUse settings)
    (hcall : s.calls d = some call) (htracked : (s.answered d call' after keys).Tracked settings)
    (hexec : s.redis.exec delivery token c = (reply, after))
    (hsame : ∀ state n, call'.request = .consumeOauthState state → readStamp call'.log = some n →
      call.request = .consumeOauthState state ∧ readStamp call.log = some n ∧
        (call.failed → call'.failed))
    (hgone : ∀ state n payload, call'.request = .consumeOauthState state →
      readStamp call'.log = some n → call'.program = .done (.ok (.state payload)) →
      ∀ k e, after.entries.get? k = some e → e.stamp ≠ n) :
    (s.answered d call' after keys).SingleUse settings := by
  refine h.of_exec htracked hexec (fun c state n callc hr => ?_) fun c state n hc => ?_
  · rcases hr.of_answered with ⟨rfl, rfl⟩ | ⟨-, hold⟩
    · obtain ⟨hrequest, hread, hfailed⟩ := hsame state n hr.2.1 hr.2.2
      exact ⟨call, ⟨hcall, hrequest, hread⟩, hfailed⟩
    · exact ⟨callc, hold, id⟩
  · obtain ⟨callc, hr, payload, hdone⟩ := hc
    rcases hr.of_answered with ⟨rfl, rfl⟩ | ⟨-, hold⟩
    · exact .inr (hgone state n payload hr.2.1 hr.2.2 hdone)
    · exact .inl ⟨callc, hold, payload, hdone⟩

/-- The read that opens a consume call: the state it finds is held by no call that can still succeed. -/
theorem SingleUse.of_read {s : AuthSystem κ} (h : s.SingleUse settings)
    (hcall : s.calls d = some ⟨.consumeOauthState state, forgotten, [], program⟩)
    (hlive : s.redis.live (stateKey state) = some e)
    (halone : ∀ c' state' call', s.Read c' state' e.stamp call' → s.pending c' = none)
    (htracked : (s.answered d call' s.redis keys).Tracked settings)
    (hrequest : call'.request = .consumeOauthState state) (hread : readStamp call'.log = some e.stamp)
    (hpending : ∀ payload, call'.program ≠ .done (.ok (.state payload))) :
    (s.answered d call' s.redis keys).SingleUse settings := by
  have hentry := Redis.live_some hlive
  have hfree : ∀ c state' call, s.Read c state' e.stamp call → call.failed := by
    intro c state' call hr
    rcases hr.phase h.tracked with hfailed | hconsumed | hpend
    · exact hfailed
    · exact absurd rfl (h.gone c state' _ _ e hconsumed hentry)
    · rw [halone c state' call hr] at hpend
      cases hpend
  refine ⟨htracked, h.stamps, h.distinct, fun c st n callc hr => ?_, fun c st n callc k e' hr he' hn => ?_,
    fun c st callc c' st' callc' n hr hr' hf hf' => ?_, fun c st n k e' hc he' => ?_⟩
  · rcases hr.of_answered with ⟨rfl, rfl⟩ | ⟨-, hold⟩
    · obtain rfl : e.stamp = n := Option.some.inj (hread.symm.trans hr.2.2)
      exact h.stamps _ e hentry
    · exact h.old c st n callc hold
  · rcases hr.of_answered with ⟨rfl, rfl⟩ | ⟨-, hold⟩
    · obtain rfl : e.stamp = n := Option.some.inj (hread.symm.trans hr.2.2)
      cases hrequest.symm.trans hr.2.1
      exact h.distinct k _ e' e he' hentry hn
    · exact h.key c st n callc k e' hold he' hn
  · rcases hr.of_answered with ⟨rfl, rfl⟩ | ⟨hne, hold⟩ <;>
      rcases hr'.of_answered with ⟨rfl, rfl⟩ | ⟨hne', hold'⟩
    · rfl
    · obtain rfl : e.stamp = n := Option.some.inj (hread.symm.trans hr.2.2)
      exact absurd (hfree c' st' callc' hold') hf'
    · obtain rfl : e.stamp = n := Option.some.inj (hread.symm.trans hr'.2.2)
      exact absurd (hfree c st callc hold) hf
    · exact h.unique c st callc c' st' callc' n hold hold' hf hf'
  · obtain ⟨callc, hr, payload, hdone⟩ := hc
    rcases hr.of_answered with ⟨rfl, rfl⟩ | ⟨-, hold⟩
    · exact absurd hdone (hpending payload)
    · exact h.gone c st n k e' ⟨callc, hold, payload, hdone⟩ he'

theorem SingleUse.step {s : AuthSystem κ} (h : s.SingleUse settings) (halone : s.ReadsAlone a)
    (hstep : Stepped settings s a s') : s'.SingleUse settings := by
  have htracked := h.tracked.step hstep
  cases hstep with
  | tick => exact h.of_calls htracked rfl rfl fun _ _ _ _ hr => hr
  | idle => exact h
  | start hnone =>
    refine h.of_calls htracked rfl rfl fun c state n call hr => ?_
    rcases update_eq_some hr.1 with ⟨rfl, rfl⟩ | ⟨_, hc⟩
    · cases hr.2.2
    · exact ⟨hc, hr.2⟩
  | @deliver command d request forgotten log delivery token reply after next hcall hexec =>
    by_cases hconsume : ∃ state, request = .consumeOauthState state
    · obtain ⟨state, rfl⟩ := hconsume
      have hphase := consume_reaches (h.tracked d _ hcall)
      cases hphase with
      | asked next =>
        obtain ⟨rfl, hlive⟩ := Redis.exec_get hexec
        rcases reply with _ | _ | e
        · exact h.of_reply hcall htracked hexec (fun _ _ _ hn => nomatch hn) fun _ _ _ _ hn => nomatch hn
        · exact h.of_reply hcall htracked hexec (fun _ _ _ hn => nomatch hn) fun _ _ _ _ hn => nomatch hn
        · refine h.of_read hcall (hlive e rfl) ?_ htracked rfl rfl fun payload hdone => ?_
          · exact halone _ state hcall rfl rfl e (hlive e rfl)
          · obtain ⟨e', hlog⟩ :=
              (consume_reaches (htracked d _ (Function.update_self ..))).of_success hdone
            cases hlog
      | read e next =>
        refine h.of_reply hcall htracked hexec (fun st n hr hn => ⟨hr, hn, ?_⟩) fun st n payload hr hn hdone => ?_
        · rintro ⟨error, herror⟩
          cases herror
        · obtain ⟨e', hlog⟩ :=
            (consume_reaches (htracked d _ (Function.update_self ..))).of_success hdone
          cases hlog
          intro k e' he' hstamp
          obtain rfl : e.stamp = n := Option.some.inj hn
          cases hr
          rcases (Redis.exec_entries hexec).2 k e' he' with ⟨e₀, he₀, hstamp₀, -⟩ | ⟨-, -, _, _, hset, -⟩
          · have hkey := h.key d state _ _ k e₀ ⟨hcall, rfl, rfl⟩ he₀ (hstamp₀.trans hstamp)
            rw [Redis.exec_delete hexec (List.mem_singleton.mpr hkey)] at he'
            cases he'
          · cases hset
    · refine h.of_reply hcall htracked hexec (fun st n hr _ => ?_) fun st n payload hr => ?_
      · exact absurd ⟨st, hr⟩ hconsume
      · exact absurd ⟨st, hr⟩ hconsume

/-- Every stored state is consumed by at most one call, in every run in which no call reads a state
between another call's read of it and that call's delete. -/
theorem oauthState_consumed_once {s : AuthSystem κ} (hinit : s.Initial)
    (hrun : RunMeeting settings ReadsAlone s acts) (n : ℕ) :
    ∀ c state c' state', (s.exec settings acts).Consumed c state n →
      (s.exec settings acts).Consumed c' state' n → c = c' := by
  intro c state c' state' ⟨call, hr, payload, hdone⟩ ⟨call', hr', payload', hdone'⟩
  have hinv := hrun.preserves (fun s a h halone => h.step halone (stepped settings s a))
    (SingleUse.initial hinit)
  refine hinv.unique c state call c' state' call' n hr hr' ?_ ?_
  · rintro ⟨error, herror⟩
    cases hdone.symm.trans herror
  · rintro ⟨error, herror⟩
    cases hdone'.symm.trans herror

omit [DecidableEq κ] in
/-- Nobody else is in the middle of a call. -/
theorem ReadsAlone.of_idle {s : AuthSystem κ} (h : ∀ c', c' ≠ c → s.pending c' = none) :
    s.ReadsAlone (.deliver c delivery token) := by
  intro call state hc _ hlog e _ c' state' call' hr
  refine h c' fun heq => ?_
  subst heq
  cases hc.symm.trans hr.1
  have hread := hr.2.2
  rw [hlog] at hread
  cases hread

omit [DecidableEq κ] in
theorem Consumed.of_consumed? {s : AuthSystem κ}
    (h : (s.calls c).bind AuthCall.consumed? = some (state, n, payload)) : s.Consumed c state n := by
  obtain ⟨call, hc, hcall⟩ := Option.bind_eq_some_iff.mp h
  obtain ⟨request, forgotten, log, program⟩ := call
  simp only [AuthCall.consumed?] at hcall
  split at hcall
  · rename_i hn
    cases hcall
    exact ⟨_, ⟨hc, rfl, hn⟩, payload, rfl⟩
  · cases hcall

/-- A login stores a state; the second callback with it comes after the first is answered. -/
def callbackThenReplay : List (AuthAction (Fin 3)) :=
  [.start 0 (.storeOauthState "state" "nonce" "/" none none none), .deliver 0 .done "",
    .start 1 (.consumeOauthState "state"), .deliver 1 .done "", .deliver 1 .done "",
    .start 2 (.consumeOauthState "state"), .deliver 2 .done ""]

theorem oauthState_consumed_once_replay :
    ∃! c, ((idle 1000).exec AuthSettings.defaults callbackThenReplay).Consumed c "state" 0 := by
  have hrun : RunMeeting AuthSettings.defaults ReadsAlone (idle 1000) callbackThenReplay :=
    .cons trivial <| .cons (.of_idle (by decide +kernel)) <| .cons trivial <|
      .cons (.of_idle (by decide +kernel)) <| .cons (.of_idle (by decide +kernel)) <|
      .cons trivial <| .cons (.of_idle (by decide +kernel)) .nil
  have hfirst : ((idle 1000).exec AuthSettings.defaults callbackThenReplay).Consumed 1 "state" 0 :=
    .of_consumed? (by decide +kernel :
      _ = some ("state", 0, .obj [("nonce", .str "nonce"), ("return_to", .str "/")]))
  refine ⟨1, hfirst, ?_⟩
  intro c hc
  exact oauthState_consumed_once idle_initial hrun 0 c "state" 1 "state" hc hfirst

/-- Both callbacks read the state before either of them deletes it. -/
def concurrentCallbacks : List (AuthAction (Fin 3)) :=
  [.start 0 (.storeOauthState "state" "nonce" "/" none none none), .deliver 0 .done "",
    .start 1 (.consumeOauthState "state"), .start 2 (.consumeOauthState "state"),
    .deliver 1 .done "", .deliver 2 .done "", .deliver 1 .done "", .deliver 2 .done ""]

theorem oauthState_consumed_twice :
    ¬ ∀ (s : AuthSystem (Fin 3)) (acts : List (AuthAction (Fin 3))) (n : ℕ), s.Initial →
      ∀ c state c' state', (s.exec AuthSettings.defaults acts).Consumed c state n →
        (s.exec AuthSettings.defaults acts).Consumed c' state' n → c = c' := by
  intro h
  have hconsumed : ∀ c : Fin 3, c ≠ 0 →
      ((idle 1000).exec AuthSettings.defaults concurrentCallbacks).Consumed c "state" 0 := by
    have hall : ∀ c : Fin 3, c ≠ 0 →
        (((idle 1000).exec AuthSettings.defaults concurrentCallbacks).calls c).bind AuthCall.consumed? =
          some ("state", 0, .obj [("nonce", .str "nonce"), ("return_to", .str "/")]) := by
      decide +kernel
    exact fun c hc => .of_consumed? (hall c hc)
  have heq := h (idle 1000) concurrentCallbacks 0 idle_initial 1 "state" 2 "state"
    (hconsumed 1 (by decide)) (hconsumed 2 (by decide))
  exact absurd heq (by decide)

end AuthSystem
end QuantAgent.Auth
