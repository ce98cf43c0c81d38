import QuantAgent.Lib.Interleaving
import QuantAgent.Lib.Dict
import QuantAgent.Lib.PyText

namespace QuantAgent.Auth
set_option autoImplicit true

inductive JsonScalar where
  | null
  | bool (b : Bool)
  | int (n : ℤ)
  | float (x : ℚ)
  | str (s : String)
deriving DecidableEq

/-- A decoded value: a scalar, an object of scalars, or anything else, which is true or false. -/
inductive JsonValue where
  | scalar (x : JsonScalar)
  | obj (fields : List (String × JsonScalar))
  | other (truthy : Bool)
deriving DecidableEq

def JsonScalar.truthy : JsonScalar → Bool
  | .null => false
  | .bool b => b
  | .int n => n != 0
  | .float x => decide (x ≠ 0)
  | .str s => decide (s ≠ "")

/-- `int(value)`, if it raises neither `TypeError` nor `ValueError`. -/
def JsonScalar.toInt? : JsonScalar → Option ℤ
  | .null => none
  | .bool b => some (if b then 1 else 0)
  | .int n => some n
  | .float x => some (if 0 ≤ x then ⌊x⌋ else ⌈x⌉)
  | .str s => (pyStrip s).toInt?

inductive RedisValue where
  | json (value : JsonValue)
  | undecodable
deriving DecidableEq

/-- A key's value, the second its time to live ends, and the number of the write that put it there. -/
structure RedisEntry where
  value : RedisValue
  deadline : ℤ
  stamp : ℕ
deriving DecidableEq

structure Redis where
  now : ℤ
  entries : Dict String RedisEntry
  writes : ℕ

/-- The commands of the store; the clock and the token generator are asked like Redis is. -/
inductive RedisCommand where
  | get (key : String)
  | set (key : String) (value : JsonValue) (ex : ℤ)
  | expire (key : String) (ttl : ℤ)
  | delete (keys : List String)
  | time
  | generateToken
deriving DecidableEq

/-- The reply to a command; a read that failed has none, a write that failed is not acknowledged. -/
def RedisReply : RedisCommand → Type
  | .get _ => Option (Option RedisEntry)
  | .set _ _ _ => Bool
  | .expire _ _ => Bool
  | .delete _ => Bool
  | .time => ℤ
  | .generateToken => String

/-- A command succeeds, never arrives, or takes effect while its reply gets lost. -/
inductive Delivery where
  | done
  | lost
  | unacknowledged
deriving DecidableEq

namespace Redis

def live (s : Redis) (key : String) : Option RedisEntry :=
  (s.entries.get? key).filter fun e => decide (s.now < e.deadline)

def put (s : Redis) (key : String) (value : JsonValue) (ex : ℤ) : Redis :=
  { s with
    entries := s.entries.insert key ⟨.json value, s.now + ex, s.writes⟩
    writes := s.writes + 1 }

def prolong (s : Redis) (key : String) (ttl : ℤ) : Redis :=
  match s.live key with
  | none => s
  | some e => { s with entries := s.entries.insert key { e with deadline := s.now + ttl } }

def remove (s : Redis) (keys : List String) : Redis :=
  { s with entries := keys.foldl Dict.erase s.entries }

/-- One command, atomically. Redis refuses a time to live that is not positive. -/
def exec (s : Redis) (delivery : Delivery) (token : String) : (c : RedisCommand) → RedisReply c × Redis
  | .get key => (if delivery = .done then some (s.live key) else none, s)
  | .set key value ex =>
    (decide (delivery = .done ∧ 0 < ex),
      if delivery ≠ .lost ∧ 0 < ex then s.put key value ex else s)
  | .expire key ttl => (decide (delivery = .done), if delivery ≠ .lost then s.prolong key ttl else s)
  | .delete keys => (decide (delivery = .done), if delivery ≠ .lost then s.remove keys else s)
  | .time => (s.now, s)
  | .generateToken => (token, s)

theorem get?_remove (s : Redis) (keys : List String) (k : String) :
    (s.remove keys).entries.get? k = if k ∈ keys then none else s.entries.get? k := by
  have hfold : ∀ d : Dict String RedisEntry,
      (keys.foldl Dict.erase d).get? k = if k ∈ keys then none else d.get? k := by
    induction keys with
    | nil => exact fun _ => rfl
    | cons key keys ih =>
      intro d
      rw [List.foldl_cons, ih, Dict.get?_erase]
      by_cases hk : k = key <;> by_cases hmem : k ∈ keys <;> simp [hk, hmem]
  exact hfold s.entries

theorem live_some {s : Redis} (h : s.live key = some e) : s.entries.get? key = some e :=
  (Option.filter_eq_some_iff.mp h).1

/-- What a command leaves in Redis: entries from before under their own keys, and the one it writes. -/
theorem exec_entries {s after : Redis} (h : s.exec delivery token c = (reply, after)) :
    s.writes ≤ after.writes ∧ ∀ k e, after.entries.get? k = some e →
      (∃ e₀, s.entries.get? k = some e₀ ∧ e₀.stamp = e.stamp ∧ e₀.value = e.value) ∨
        e.stamp = s.writes ∧ after.writes = s.writes + 1 ∧
          ∃ value ex, c = .set k value ex ∧ e.value = .json value ∧ delivery ≠ .lost := by
  have hsame : s.writes ≤ s.writes ∧ ∀ k e, s.entries.get? k = some e →
      (∃ e₀, s.entries.get? k = some e₀ ∧ e₀.stamp = e.stamp ∧ e₀.value = e.value) ∨
        e.stamp = s.writes ∧ s.writes = s.writes + 1 ∧
          ∃ value ex, c = .set k value ex ∧ e.value = .json value ∧ delivery ≠ .lost :=
    ⟨le_rfl, fun k e he => .inl ⟨e, he, rfl, rfl⟩⟩
  cases c with
  | get key =>
    cases h
    exact hsame
  | time =>
    cases h
    exact hsame
  | generateToken =>
    cases h
    exact hsame
  | set key value ex =>
    obtain ⟨-, rfl⟩ := Prod.mk.inj h
    split
    · rename_i hput
      refine ⟨Nat.le_succ _, fun k e he => ?_⟩
      rw [put, Dict.get?_insert] at he
      split at he
      · rename_i hk
        cases he
        exact .inr ⟨rfl, rfl, value, ex, by rw [hk], rfl, hput.1⟩
      · exact .inl ⟨e, he, rfl, rfl⟩
    · exact hsame
  | expire key ttl =>
    obtain ⟨-, rfl⟩ := Prod.mk.inj h
    split
    · cases hlive : s.live key with
      | none => simpa only [prolong, hlive] using hsame
      | some e₀ =>
        simp only [prolong, hlive]
        refine ⟨le_rfl, fun k e he => .inl ?_⟩
        rw [Dict.get?_insert] at he
        split at he
        · rename_i hk
          cases he
          exact ⟨e₀, by rw [hk, live_some hlive], rfl, rfl⟩
        · exact ⟨e, he, rfl, rfl⟩
    · exact hsame
  | delete keys =>
    obtain ⟨-, rfl⟩ := Prod.mk.inj h
    split
    · refine ⟨le_rfl, fun k e he => .inl ?_⟩
      rw [get?_remove] at he
      split at he
      · cases he
      · exact ⟨e, he, rfl, rfl⟩
    · exact hsame

/-- A read changes nothing and replies with what is there. -/
theorem exec_get {s after : Redis} {reply : RedisReply (.get key)}
    (h : s.exec delivery token (.get key) = (reply, after)) :
    after = s ∧ ∀ e, reply = some (some e) → s.live key = some e := by
  obtain ⟨rfl, rfl⟩ := Prod.mk.inj h
  refine ⟨rfl, fun e he => ?_⟩
  have he : (if delivery = .done then some (s.live key) else none) = some (some e) := he
  by_cases hdone : delivery = .done
  · rw [if_pos hdone] at he
    exact Option.some.inj he
  · rw [if_neg hdone] at he
    cases he

/-- An acknowledged deletion has happened. -/
theorem exec_delete {s after : Redis} {keys : List String}
    (h : s.exec delivery token (.delete keys) = ((true : Bool), after)) (hk : k ∈ keys) :
    after.entries.get? k = none := by
  obtain ⟨hdone, rfl⟩ := Prod.mk.inj h
  have hdone : delivery = .done := of_decide_eq_true hdone
  rw [if_pos (by rw [hdone]; decide), get?_remove, if_pos hk]

end Redis

inductive AppError where
  | oauthStateInvalid
  | redisReadFailed
  | redisWriteFailed
  | redisDeleteFailed
deriving DecidableEq

/-- A method of `AuthSessionStore`. -/
abbrev AuthM := ExceptT AppError (Prog RedisCommand RedisReply)

def ask (c : RedisCommand) : AuthM (RedisReply c) := ExceptT.lift (Prog.send c)

structure AuthSettings where
  authStateTtlSeconds : ℤ := 600
  authSessionIdleTtlSeconds : ℤ := 60 * 30
  authSessionAbsoluteTtlSeconds : ℤ := 60 * 60 * 8
  authSessionTouchIntervalSeconds : ℤ := 60
  authCsrfTtlSeconds : ℤ := 3600

def AuthSettings.defaults : AuthSettings := {}

namespace AuthSessionStore

def stateKey (state : String) : String := "qa:auth:state:" ++ state

def sessionKey (sessionId : String) : String := "qa:auth:session:" ++ sessionId

def csrfKey (sessionId : String) : String := "qa:auth:csrf:" ++ sessionId

/-- `_get_json`; a stored `null` reads like a missing key. -/
def getJson (key : String) : AuthM (Option JsonValue) := do
  match ← ask (.get key) with
  | none => throw .redisReadFailed
  | some none => return none
  | some (some ⟨.undecodable, _, _⟩) => throw .redisReadFailed
  | some (some ⟨.json (.scalar .null), _, _⟩) => return none
  | some (some ⟨.json value, _, _⟩) => return some value

def setJson (key : String) (payload : JsonValue) (ttlSeconds : ℤ) : AuthM Unit := do
  let acknowledged : Bool ← ask (.set key payload ttlSeconds)
  if acknowledged then pure () else throw .redisWriteFailed

def expire (key : String) (ttlSeconds : ℤ) : AuthM Unit := do
  let acknowledged : Bool ← ask (.expire key (max 1 ttlSeconds))
  if acknowledged then pure () else throw .redisWriteFailed

def delete (keys : List String) : AuthM Unit := do
  let acknowledged : Bool ← ask (.delete keys)
  if acknowledged then pure () else throw .redisDeleteFailed

def storeOauthState (settings : AuthSettings) (state nonce returnTo : String)
    (redirectUri flowMode transactionTokenHash : Option String) : AuthM Unit :=
  let optional (key : String) (value : Option String) : List (String × JsonScalar) :=
    value.toList.map fun x => (key, .str x)
  let payload := [("nonce", .str nonce), ("return_to", .str returnTo)] ++
    optional "redirect_uri" redirectUri ++ optional "flow_mode" flowMode ++
    optional "transaction_token_hash" transactionTokenHash
  setJson (stateKey state) (.obj payload) settings.authStateTtlSeconds

def consumeOauthState (state : String) : AuthM JsonValue := do
  match ← getJson (stateKey state) with
  | none => throw .oauthStateInvalid
  | some payload =>
    delete [stateKey state]
    return payload

def revokeSession (sessionId : String) : AuthM Unit :=
  if sessionId = "" then pure () else delete [sessionKey sessionId, csrfKey sessionId]

def createSession (settings : AuthSettings) (userId : String) : AuthM (String × String) := do
  let sessionId : String ← ask .generateToken
  let csrfToken : String ← ask .generateToken
  let now : ℤ ← ask .time
  let initialSessionTtl :=
    min settings.authSessionIdleTtlSeconds settings.authSessionAbsoluteTtlSeconds
  let initialCsrfTtl := min settings.authCsrfTtlSeconds initialSessionTtl
  let scopeFamilyId : String ← ask .generateToken
  setJson (sessionKey sessionId)
    (.obj [("user_id", .str userId), ("scope_family_id", .str scopeFamilyId),
      ("created_at", .int now), ("last_seen_at", .int now),
      ("absolute_expires_at", .int (now + settings.authSessionAbsoluteTtlSeconds))])
    initialSessionTtl
  setJson (csrfKey sessionId) (.obj [("csrf_token", .str csrfToken)]) initialCsrfTtl
  return (sessionId, csrfToken)

def rotateSession (settings : AuthSettings) (userId : String) (previousSessionId : Option String) :
    AuthM (String × String) := do
  let (sessionId, csrfToken) ← createSession settings userId
  match previousSessionId with
  | none => return (sessionId, csrfToken)
  | some previous =>
    if previous ≠ "" ∧ previous ≠ sessionId then
      tryCatch (revokeSession previous) fun error => do
        tryCatch (revokeSession sessionId) fun _ => pure ()
        throw error
    return (sessionId, csrfToken)

/-- The three times of a session payload, if they are all numbers. -/
def sessionTimes (fields : List (String × JsonScalar)) : Option (ℤ × ℤ × ℤ) := do
  let createdAt ← (← fields.lookup "created_at").toInt?
  let lastSeenAt ← (← fields.lookup "last_seen_at").toInt?
  let absoluteExpiresAt ← (← fields.lookup "absolute_expires_at").toInt?
  return (createdAt, lastSeenAt, absoluteExpiresAt)

/-- `payload[key] = value` on an object that has the key. -/
def setField (fields : List (String × JsonScalar)) (key : String) (value : JsonScalar) :
    List (String × JsonScalar) := fields.map fun e => if e.1 = key then (key, value) else e

/-- The user id of a live session; `str` of the value is the user. -/
def getSessionUserId (settings : AuthSettings) (sessionId : String) : AuthM (Option JsonScalar) := do
  if sessionId = "" then return none
  match ← getJson (sessionKey sessionId) with
  | some (.obj fields) =>
    let userId := (fields.lookup "user_id").getD .null
    if !userId.truthy then
      revokeSession sessionId
      return none
    match sessionTimes fields with
    | none =>
      revokeSession sessionId
      return none
    | some (createdAt, lastSeenAt, absoluteExpiresAt) =>
      if createdAt ≤ 0 ∨ lastSeenAt < createdAt ∨ absoluteExpiresAt ≤ createdAt then
        revokeSession sessionId
        return none
      let now : ℤ ← ask .time
      if absoluteExpiresAt ≤ now then
        revokeSession sessionId
        return none
      let idleElapsed := max 0 (now - lastSeenAt)
      if settings.authSessionIdleTtlSeconds ≤ idleElapsed then
        revokeSession sessionId
        return none
      if settings.authSessionTouchIntervalSeconds ≤ idleElapsed then
        let nextSessionTtl := min settings.authSessionIdleTtlSeconds (absoluteExpiresAt - now)
        if nextSessionTtl ≤ 0 then
          revokeSession sessionId
          return none
        setJson (sessionKey sessionId) (.obj (setField fields "last_seen_at" (.int now)))
          nextSessionTtl
        expire (csrfKey sessionId) (min settings.authCsrfTtlSeconds nextSessionTtl)
      return some userId
  | _ => return none

end AuthSessionStore
end QuantAgent.Auth
