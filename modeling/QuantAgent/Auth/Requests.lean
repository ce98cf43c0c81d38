import QuantAgent.Auth.SessionStore

namespace QuantAgent.Auth
set_option autoImplicit true

inductive AuthRequest where
  | storeOauthState (state nonce returnTo : String)
      (redirectUri flowMode transactionTokenHash : Option String)
  | consumeOauthState (state : String)
  | rotateSession (userId : String) (previousSessionId : Option String)
  | getSessionUserId (sessionId : String)
  | revokeSession (sessionId : String)
deriving DecidableEq

inductive Answer where
  | unit
  | state (payload : JsonValue)
  | session (sessionId csrfToken : String)
  | user (userId : Option JsonScalar)
deriving DecidableEq

abbrev AuthProgram := Prog RedisCommand RedisReply (Except AppError Answer)

abbrev AuthExchange := Prog.Exchange RedisCommand RedisReply

def AuthM.answering (wrap : α → Answer) (m : AuthM α) : AuthProgram := ExceptT.run (wrap <$> m)

def AuthRequest.program (settings : AuthSettings) : AuthRequest → AuthProgram
  | .storeOauthState state nonce returnTo redirectUri flowMode transactionTokenHash =>
    (AuthSessionStore.storeOauthState settings state nonce returnTo redirectUri flowMode
      transactionTokenHash).answering fun _ => .unit
  | .consumeOauthState state => (AuthSessionStore.consumeOauthState state).answering .state
  | .rotateSession userId previous =>
    (AuthSessionStore.rotateSession settings userId previous).answering fun r => .session r.1 r.2
  | .getSessionUserId sessionId =>
    (AuthSessionStore.getSessionUserId settings sessionId).answering .user
  | .revokeSession sessionId => (AuthSessionStore.revokeSession sessionId).answering fun _ => .unit

/-- A request in progress or answered: what it sent and got so far, and how it goes on. `forgotten`
holds the keys whose deletion had been acknowledged when the request came in. -/
structure AuthCall where
  request : AuthRequest
  forgotten : List String
  log : List AuthExchange
  program : AuthProgram

/-- Redis, the requests of all workers, and the keys whose deletion was acknowledged. -/
structure AuthSystem (κ : Type) where
  redis : Redis
  calls : κ → Option AuthCall
  deleted : List String

inductive AuthAction (κ : Type) where
  | tick (elapsed : ℕ)
  | start (call : κ) (request : AuthRequest)
  /-- The next command of a call reaches Redis, or does not. -/
  | deliver (call : κ) (delivery : Delivery) (token : String)
deriving DecidableEq

/-- The keys that a command deletes for good, when the reply says so. -/
def acknowledgedKeys : (c : RedisCommand) → RedisReply c → List String
  | .delete keys, acknowledged => bif acknowledged then keys else []
  | _, _ => []

namespace AuthSystem
variable {κ : Type} [DecidableEq κ]

def step (settings : AuthSettings) (s : AuthSystem κ) : AuthAction κ → AuthSystem κ
  | .tick elapsed => { s with redis := { s.redis with now := s.redis.now + elapsed } }
  | .start c request =>
    match s.calls c with
    | some _ => s
    | none =>
      { s with
        calls := Function.update s.calls c
          (some ⟨request, s.deleted, [], request.program settings⟩) }
  | .deliver c delivery token =>
    match s.calls c with
    | some ⟨request, forgotten, log, .call command next⟩ =>
      let r := s.redis.exec delivery token command
      { redis := r.2
        calls := Function.update s.calls c
          (some ⟨request, forgotten, log ++ [⟨command, r.1⟩], next r.1⟩)
        deleted := acknowledgedKeys command r.1 ++ s.deleted }
    | _ => s

def exec (settings : AuthSettings) (s : AuthSystem κ) (acts : List (AuthAction κ)) : AuthSystem κ :=
  acts.foldl (step settings) s

/-- The command a call sends next. -/
def pending (s : AuthSystem κ) (c : κ) : Option RedisCommand :=
  match s.calls c with
  | some ⟨_, _, _, .call command _⟩ => some command
  | _ => none

/-- No call has been made yet; what Redis holds is whatever was written before. -/
structure Initial (s : AuthSystem κ) : Prop where
  calls : ∀ c, s.calls c = none
  deleted : s.deleted = []
  stamps : ∀ k e, s.redis.entries.get? k = some e → e.stamp < s.redis.writes
  distinct : ∀ k k' e e', s.redis.entries.get? k = some e → s.redis.entries.get? k' = some e' →
    e.stamp = e'.stamp → k = k'

/-- A run whose steps all meet `cond`. -/
inductive RunMeeting (settings : AuthSettings) (cond : AuthSystem κ → AuthAction κ → Prop) :
    AuthSystem κ → List (AuthAction κ) → Prop
  | nil : RunMeeting settings cond s []
  | cons (hcond : cond s a) (hrest : RunMeeting settings cond (s.step settings a) acts) :
      RunMeeting settings cond s (a :: acts)

theorem RunMeeting.of_true {s : AuthSystem κ} (acts : List (AuthAction κ)) :
    RunMeeting settings (fun _ _ => True) s acts := by
  induction acts generalizing s with
  | nil => exact .nil
  | cons a acts ih => exact .cons trivial ih

/-- What such a run keeps, if each of its steps does. -/
theorem RunMeeting.preserves {cond : AuthSystem κ → AuthAction κ → Prop} {inv : AuthSystem κ → Prop}
    (hstep : ∀ s a, inv s → cond s a → inv (s.step settings a)) {s : AuthSystem κ}
    (hrun : RunMeeting settings cond s acts) (h : inv s) : inv (s.exec settings acts) := by
  induction hrun with
  | nil => exact h
  | cons hcond _ ih => exact ih (hstep _ _ h hcond)

/-- A system that nobody has used. -/
def idle (now : ℤ) : AuthSystem κ := ⟨⟨now, Dict.empty, 0⟩, fun _ => none, []⟩

omit [DecidableEq κ] in
theorem idle_initial : (idle now : AuthSystem κ).Initial where
  calls _ := rfl
  deleted := rfl
  stamps _ _ h := nomatch h
  distinct _ _ _ _ h := nomatch h

/-- What one action does: time passes, a request comes in, or a command is exchanged. -/
inductive Stepped (settings : AuthSettings) (s : AuthSystem κ) : AuthAction κ → AuthSystem κ → Prop
  | tick : Stepped settings s (.tick elapsed)
      { s with redis := { s.redis with now := s.redis.now + elapsed } }
  | idle (h : s.step settings a = s) : Stepped settings s a s
  | start (h : s.calls c = none) : Stepped settings s (.start c request)
      { s with
        calls := Function.update s.calls c
          (some ⟨request, s.deleted, [], request.program settings⟩) }
  | deliver {next : RedisReply command → AuthProgram}
      (h : s.calls c = some ⟨request, forgotten, log, .call command next⟩)
      (hr : s.redis.exec delivery token command = (reply, after)) :
      Stepped settings s (.deliver c delivery token)
        ⟨after, Function.update s.calls c
          (some ⟨request, forgotten, log ++ [⟨command, reply⟩], next reply⟩),
          acknowledgedKeys command reply ++ s.deleted⟩

theorem stepped (settings : AuthSettings) (s : AuthSystem κ) (a : AuthAction κ) :
    Stepped settings s a (s.step settings a) := by
  cases a with
  | tick elapsed => exact .tick
  | start c request =>
    cases hc : s.calls c with
    | none =>
      simp only [step, hc]
      exact .start hc
    | some call =>
      have hidle : s.step settings (.start c request) = s := by simp only [step, hc]
      rw [hidle]
      exact .idle hidle
  | deliver c delivery token =>
    cases hc : s.calls c with
    | none =>
      have hidle : s.step settings (.deliver c delivery token) = s := by simp only [step, hc]
      rw [hidle]
      exact .idle hidle
    | some call =>
      obtain ⟨request, forgotten, log, program⟩ := call
      cases program with
      | done answer =>
        have hidle : s.step settings (.deliver c delivery token) = s := by simp only [step, hc]
        rw [hidle]
        exact .idle hidle
      | call command next =>
        simp only [step, hc]
        exact .deliver hc rfl

/-- Calls are never forgotten, and what they have exchanged stays on record. -/
theorem Stepped.calls {s s' : AuthSystem κ} (hstep : Stepped settings s a s')
    (hc : s.calls c = some call) :
    ∃ call', s'.calls c = some call' ∧ call'.request = call.request ∧ call.log ⊆ call'.log := by
  have hsame : ∃ call', s.calls c = some call' ∧ call'.request = call.request ∧ call.log ⊆ call'.log :=
    ⟨call, hc, rfl, List.Subset.refl _⟩
  cases hstep with
  | tick => exact hsame
  | idle => exact hsame
  | @start d request hnone =>
    have hne : c ≠ d := fun heq => by
      rw [heq, hnone] at hc
      cases hc
    exact ⟨call, (Function.update_of_ne hne ..).trans hc, rfl, List.Subset.refl _⟩
  | @deliver command d request forgotten log delivery token reply after next hcall hexec =>
    by_cases heq : c = d
    · subst heq
      cases hc.symm.trans hcall
      exact ⟨_, Function.update_self .., rfl, List.subset_append_left ..⟩
    · exact ⟨call, (Function.update_of_ne heq ..).trans hc, rfl, List.Subset.refl _⟩

/-- Every call is where its program leads after the exchanges it has had. -/
def Tracked (settings : AuthSettings) (s : AuthSystem κ) : Prop :=
  ∀ c call, s.calls c = some call → (call.request.program settings).Reaches call.log call.program

theorem Tracked.step {s : AuthSystem κ} (h : s.Tracked settings)
    (hstep : Stepped settings s a s') : s'.Tracked settings := by
  intro c call hc
  cases hstep with
  | tick => exact h c call hc
  | idle => exact h c call hc
  | start hnone =>
    rcases update_eq_some hc with ⟨rfl, rfl⟩ | ⟨_, hc⟩
    · exact .nil
    · exact h c call hc
  | deliver hcall hr =>
    rcases update_eq_some hc with ⟨rfl, rfl⟩ | ⟨_, hc⟩
    · exact (h _ _ hcall).snoc _
    · exact h c call hc

end AuthSystem
end QuantAgent.Auth
