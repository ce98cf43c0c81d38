import QuantAgent.Lib.Interleaving
import Mathlib.Algebra.Order.Floor.Ring
import Mathlib.Data.Rat.Floor
import Mathlib.Tactic

namespace QuantAgent.TokenQuota
set_option autoImplicit true

structure ResolvedAccountToken where
  tokenId : String
  userId : String
  quotaLimit : ℕ
  quotaWindowSeconds : ℕ
deriving DecidableEq

/-- The keys below `QUOTA_KEY_PREFIX`. A bucket is a decimal number, a fingerprint a digest. -/
inductive RedisKey where
  | quota (tokenId : String) (bucket : ℤ)
  | admission (fingerprint : String)
deriving DecidableEq

/-- A number with the time it expires, if it does. -/
structure RedisEntry where
  value : ℕ
  deadline : Option ℚ

structure Redis where
  now : ℚ
  entries : RedisKey → Option RedisEntry

namespace Redis

def live (s : Redis) (key : RedisKey) : Option RedisEntry :=
  (s.entries key).filter fun e => e.deadline.all fun d => decide (s.now < d)

/-- What `INCR` starts from. -/
def value (s : Redis) (key : RedisKey) : ℕ := ((s.live key).map RedisEntry.value).getD 0

def put (s : Redis) (key : RedisKey) (e : RedisEntry) : Redis :=
  { s with entries := Function.update s.entries key (some e) }

def incr (s : Redis) (key : RedisKey) : Redis :=
  s.put key ⟨s.value key + 1, (s.live key).bind RedisEntry.deadline⟩

def expire (s : Redis) (key : RedisKey) (seconds : ℕ) : Redis :=
  match s.live key with
  | none => s
  | some e => s.put key { e with deadline := some (s.now + seconds) }

/-- `SET key 1 EX seconds NX` -/
def setNew (s : Redis) (key : RedisKey) (seconds : ℕ) : Redis :=
  match s.live key with
  | none => s.put key ⟨1, some (s.now + seconds)⟩
  | some _ => s

/-- The script of `_consume_once_per_idempotency_key`. -/
def reserve (s : Redis) (quotaKey reservationKey : RedisKey) (window limit : ℕ) : (ℕ × ℕ) × Redis :=
  if (s.live reservationKey).isSome then ((0, 0), s)
  else
    let used := s.value quotaKey + 1
    let s := s.incr quotaKey
    let s := if used = 1 then s.expire quotaKey window else s
    if limit < used then ((2, used), s)
    else ((1, used), s.setNew reservationKey window)

end Redis

inductive QuotaCommand where
  | time
  | incr (key : RedisKey)
  | expire (key : RedisKey) (seconds : ℕ)
  | eval (quotaKey reservationKey : RedisKey) (window limit : ℕ)
deriving DecidableEq

/-- A process is asked for its clock like Redis for a key. -/
abbrev QuotaReply : QuotaCommand → Type
  | .time => ℚ
  | .incr _ => ℕ
  | .expire _ _ => Unit
  | .eval _ _ _ _ => ℕ × ℕ

def Redis.exec (s : Redis) (clock : ℚ) : (c : QuotaCommand) → QuotaReply c × Redis
  | .time => (clock, s)
  | .incr key => (s.value key + 1, s.incr key)
  | .expire key seconds => ((), s.expire key seconds)
  | .eval quotaKey reservationKey window limit => s.reserve quotaKey reservationKey window limit

structure HTTPException where
  statusCode : ℕ
  code : String
  message : String
  quotaLimit : ℕ
  quotaWindowSeconds : ℕ
  retryAfter : String
deriving DecidableEq

abbrev QuotaProgram (α : Type) := Prog QuotaCommand QuotaReply α

namespace ResolvedAccountToken
variable (token : ResolvedAccountToken)

def window : ℕ := max token.quotaWindowSeconds 1

def quotaKey (bucket : ℤ) : RedisKey := .quota token.tokenId bucket

def verdict (used : ℕ) : Except HTTPException Unit :=
  if token.quotaLimit < used then
    .error {
      statusCode := 429
      code := "account_token_quota_exceeded"
      message := "이 토큰의 요청 한도를 초과했습니다. " ++ toString token.window ++ "초당 " ++
        toString token.quotaLimit ++ "회까지 요청할 수 있습니다."
      quotaLimit := token.quotaLimit
      quotaWindowSeconds := token.window
      retryAfter := toString token.window }
  else .ok ()

/-- `hexdigest` is the SHA-256 of a text. -/
def reservationKey (hexdigest : String → String) (idempotencyKey : String) : RedisKey :=
  .admission (hexdigest (token.tokenId ++ "\x00" ++ token.userId ++ "\x00" ++ idempotencyKey))

def consumeOncePerIdempotencyKey (hexdigest : String → String) (idempotencyKey : String)
    (quotaKey : RedisKey) (window : ℕ) : QuotaProgram ℕ := do
  let result ← Prog.send
    (QuotaCommand.eval quotaKey (token.reservationKey hexdigest idempotencyKey) window token.quotaLimit)
  if result.1 = 0 then pure 0 else pure result.2

/-- The branch without a key, which an empty one takes too. -/
def consumePlain (quotaKey : RedisKey) (window : ℕ) : QuotaProgram ℕ := do
  let used ← Prog.send (QuotaCommand.incr quotaKey)
  if used = 1 then
    let _ ← Prog.send (QuotaCommand.expire quotaKey window)
    pure used
  else pure used

def consume (hexdigest : String → String) (idempotencyKey : Option String) (bucket : ℤ) :
    QuotaProgram (Except HTTPException Unit) := do
  let used ← match idempotencyKey.filter (· ≠ "") with
    | some key =>
      token.consumeOncePerIdempotencyKey hexdigest key (token.quotaKey bucket) token.window
    | none => consumePlain (token.quotaKey bucket) token.window
  pure (token.verdict used)

def checkAndConsume (hexdigest : String → String) (idempotencyKey : Option String) :
    QuotaProgram (Except HTTPException Unit) := do
  let clock ← Prog.send QuotaCommand.time
  token.consume hexdigest idempotencyKey ⌊clock / token.window⌋

theorem checkAndConsume_eq : token.checkAndConsume hexdigest idempotencyKey =
    .call .time fun clock => token.consume hexdigest idempotencyKey ⌊clock / token.window⌋ := rfl

theorem consume_plain {token : ResolvedAccountToken} (h : idempotencyKey.filter (· ≠ "") = none) :
    token.consume hexdigest idempotencyKey bucket =
      .call (.incr (token.quotaKey bucket)) fun used =>
        if used = 1 then
          .call (.expire (token.quotaKey bucket) token.window) fun _ => .done (token.verdict used)
        else .done (token.verdict used) := by
  rw [consume, h]
  apply congrArg (Prog.call _)
  funext used
  by_cases hfirst : used = 1
  · simp only [Prog.bind, if_pos hfirst]
    rfl
  · simp only [Prog.bind, if_neg hfirst]
    rfl

theorem consume_keyed {token : ResolvedAccountToken}
    (h : idempotencyKey.filter (· ≠ "") = some key) :
    token.consume hexdigest idempotencyKey bucket =
      .call (.eval (token.quotaKey bucket) (token.reservationKey hexdigest key) token.window
        token.quotaLimit) fun r => .done (token.verdict (if r.1 = 0 then 0 else r.2)) := by
  rw [consume, h]
  apply congrArg (Prog.call _)
  funext r
  by_cases hretry : r.1 = 0
  · simp only [Prog.bind, if_pos hretry]
    rfl
  · simp only [Prog.bind, if_neg hretry]
    rfl

end ResolvedAccountToken

structure QuotaCall where
  token : ResolvedAccountToken
  idempotencyKey : Option String
  program : QuotaProgram (Except HTTPException Unit)

/-- A call at the moment its counting command ran. A retry finds its reservation and is not fresh. -/
structure Count (κ : Type) where
  caller : κ
  token : ResolvedAccountToken
  reservation : Option RedisKey
  bucket : ℤ
  time : ℚ
  used : ℕ
  fresh : Bool
deriving DecidableEq

/-- `counts` is the history of the counting commands; no step reads it. -/
structure QuotaSystem (κ : Type) where
  redis : Redis
  calls : κ → Option QuotaCall
  counts : List (Count κ)

inductive QuotaAction (κ : Type) where
  | tick (later : ℚ)
  | start (call : κ) (token : ResolvedAccountToken) (idempotencyKey : Option String)
  /-- The next command of a call runs; `clock` is what the clock of its process shows. -/
  | deliver (call : κ) (clock : ℚ)
deriving DecidableEq

/-- What a command that counts a call says of it. -/
def counted (caller : κ) (token : ResolvedAccountToken) (now : ℚ) :
    (c : QuotaCommand) → QuotaReply c → List (Count κ)
  | .incr (.quota _ bucket), used => [⟨caller, token, none, bucket, now, used, true⟩]
  | .eval (.quota _ bucket) reservation _ _, (decision, used) =>
    [⟨caller, token, some reservation, bucket, now, used, decide (decision ≠ 0)⟩]
  | _, _ => []

namespace QuotaSystem
variable {κ : Type} [DecidableEq κ]

def idle (now : ℚ) : QuotaSystem κ := ⟨⟨now, fun _ => none⟩, fun _ => none, []⟩

def step (hexdigest : String → String) (s : QuotaSystem κ) : QuotaAction κ → QuotaSystem κ
  | .tick later => { s with redis := { s.redis with now := max s.redis.now later } }
  | .start c token key =>
    match s.calls c with
    | some _ => s
    | none =>
      { s with
        calls := Function.update s.calls c
          (some ⟨token, key, token.checkAndConsume hexdigest key⟩) }
  | .deliver c clock =>
    match s.calls c with
    | some ⟨token, key, .call command next⟩ =>
      let r := s.redis.exec clock command
      { redis := r.2
        calls := Function.update s.calls c (some ⟨token, key, next r.1⟩)
        counts := s.counts ++ counted c token s.redis.now command r.1 }
    | _ => s

def exec (hexdigest : String → String) (s : QuotaSystem κ) (acts : List (QuotaAction κ)) :
    QuotaSystem κ := acts.foldl (step hexdigest) s

/-- The call returned without a rejection. -/
def allowed (s : QuotaSystem κ) (c : κ) : Bool :=
  match s.calls c with
  | some ⟨_, _, .done (.ok ())⟩ => true
  | _ => false

/-- The allowed calls of a token without a reservation of their own, counted in one fixed window. -/
def spent (s : QuotaSystem κ) (token : ResolvedAccountToken) (bucket : ℤ) : List (Count κ) :=
  s.counts.filter fun e => e.token = token ∧ e.bucket = bucket ∧ e.fresh ∧ s.allowed e.caller

end QuotaSystem

end QuantAgent.TokenQuota
