import QuantAgent.Lib.Base64
import QuantAgent.Lib.JsonRoundTrip

namespace QuantAgent.Research
set_option autoImplicit true

/-- What the signer takes from elsewhere: the two hashes, `model_dump(mode="json")` of a rule, and how
deep the interpreter lets a text nest. -/
structure SignerEnv (ρ : Type) where
  sha256Hex : String → String
  hmacSha256 : String → List Char → List UInt8
  modelDump : ρ → Json
  recursionLimit : ℕ

structure RuleDraftSigner where
  secret : String
  keyVersion : String
  ttlSeconds : ℕ
  secret_ne : pyStrip secret ≠ ""
  keyVersion_ne : pyStrip keyVersion ≠ ""
  ttl_pos : 0 < ttlSeconds

inductive DraftCode where
  | draftInvalid
  | draftExpired
  | draftUserMismatch
  | draftRuleMismatch
deriving DecidableEq

/-- What `verify` raises: `DraftTokenValidationError`, or what it does not catch. -/
inductive Raised where
  | draftTokenValidation (code : DraftCode)
  | recursionError
  | typeError
deriving DecidableEq

def ruleDraftContractHash (env : SignerEnv ρ) : String := env.sha256Hex "quantagent-research-contract-v1"

def legacyRuleDraftContractHash (env : SignerEnv ρ) : String :=
  env.sha256Hex "quantagent-research-only-preflight-v1"

def ruleDraftSchemaVersion : String := "research-rule-draft.v1"

/-- The text that `canonical_rule_digest` hashes. -/
def canonicalJson (env : SignerEnv ρ) (rule : Option ρ) : String :=
  String.ofList (Json.dumps false
    (match rule with
      | none => .null
      | some rule => env.modelDump rule))

def canonicalRuleDigest (env : SignerEnv ρ) (rule : Option ρ) : String :=
  env.sha256Hex (canonicalJson env rule)

/-- `text.encode("utf-8")` -/
def utf8Encode (text : List Char) : List UInt8 := (String.ofList text).toByteArray.data.toList

/-- `bytes.decode("utf-8")`, `none` where it raises a `UnicodeDecodeError`. -/
def utf8Decode? (bytes : List UInt8) : Option (List Char) :=
  (ByteArray.mk bytes.toArray).utf8Decode?.map Array.toList

/-- `_encode_json` -/
def encodeJson (value : Json) : List Char := Base64.encode (utf8Encode (Json.dumps true value))

/-- The text of a part of a token. -/
def partText? (part : List Char) : Option (List Char) := Base64.decode part >>= utf8Decode?

/-- `_decode_json` -/
def decodeJson (env : SignerEnv ρ) (part : List Char) : Except Json.LoadError Json :=
  match partText? part with
  | none => .error .valueError
  | some text => Json.loads env.recursionLimit text

def text (s : String) : Json := .str (Json.codePoints s)

def header : Json := .obj
  [(Json.codePoints "alg", text "HS256"), (Json.codePoints "typ", text "RMP-RULE-DRAFT")]

/-- The first moment of the year 10000, in microseconds since 1970. -/
def endOfTime : ℕ := 253402300800000000

/-- What the claims of a token are made from. Times are in microseconds since 1970. -/
structure Issuance (ρ : Type) where
  keyVersion : String
  contract : String
  rule : Option ρ
  userId : String
  issuedAt : ℕ
  ttlSeconds : ℕ
  nonce : String
  nonce_ne : nonce ≠ ""
  inTime : issuedAt + ttlSeconds * 1000000 < endOfTime

namespace Issuance

def expiresAt (i : Issuance ρ) : ℕ := i.issuedAt + i.ttlSeconds * 1000000

/-- The claim `exp`, in seconds. -/
def exp (i : Issuance ρ) : ℕ := i.expiresAt / 1000000

def claims (env : SignerEnv ρ) (i : Issuance ρ) : List (Json.CodePoints × Json) :=
  [(Json.codePoints "aud", text "research-rule-draft"),
    (Json.codePoints "exp", .int i.exp),
    (Json.codePoints "iat", .int (i.issuedAt / 1000000 : ℕ)),
    (Json.codePoints "key_version", text i.keyVersion),
    (Json.codePoints "nonce", text i.nonce),
    (Json.codePoints "policy_hash", text i.contract),
    (Json.codePoints "rule_digest", text (canonicalRuleDigest env i.rule)),
    (Json.codePoints "schema_version", text ruleDraftSchemaVersion),
    (Json.codePoints "user_id", text i.userId)]

def signingInput (env : SignerEnv ρ) (i : Issuance ρ) : List Char :=
  encodeJson header ++ '.' :: encodeJson (.obj (i.claims env))

end Issuance

namespace RuleDraftSigner

structure SignedDraft where
  token : String
  expiresAt : ℕ

/-- The token over the claims of an issuance. -/
def sign (env : SignerEnv ρ) (s : RuleDraftSigner) (i : Issuance ρ) : SignedDraft where
  token := String.ofList (i.signingInput env ++ '.' ::
    Base64.encode (env.hmacSha256 s.secret (i.signingInput env)))
  expiresAt := i.expiresAt

/-- `issue`, with the uuid it draws; `none` where the expiry is out of range. -/
def issue (env : SignerEnv ρ) (s : RuleDraftSigner) (rule : Option ρ) (userId : String) (now : ℕ)
    (uuid4 : {nonce : String // nonce ≠ ""}) : Option SignedDraft :=
  if h : now + s.ttlSeconds * 1000000 < endOfTime then
    some (s.sign env
      { keyVersion := s.keyVersion
        contract := ruleDraftContractHash env
        rule := rule
        userId := userId
        issuedAt := now
        ttlSeconds := s.ttlSeconds
        nonce := uuid4.1
        nonce_ne := uuid4.2
        inTime := h })
  else none

end RuleDraftSigner

/-- `value == text` for what `claims.get` returns. -/
def isText (value : Option Json) (s : String) : Bool :=
  match value with
  | some (.str t) => t == Json.codePoints s
  | _ => false

/-- `value == {"alg": "HS256", "typ": "RMP-RULE-DRAFT"}` -/
def isHeader : Json → Bool
  | .obj members =>
    isText (Json.get? members "alg") "HS256" && isText (Json.get? members "typ") "RMP-RULE-DRAFT" &&
      members.all fun m => m.1 == Json.codePoints "alg" || m.1 == Json.codePoints "typ"
  | _ => false

/-- `isinstance(value, int)` and its value; a `bool` is one too. -/
def integer? : Option Json → Option ℤ
  | some (.int n) => some n
  | some (.bool b) => some (if b then 1 else 0)
  | _ => none

/-- What has no hash, and so is not looked up in a set. -/
def unhashable : Option Json → Bool
  | some (.arr _) => true
  | some (.obj _) => true
  | _ => false

def invalid : Raised := .draftTokenValidation .draftInvalid

/-- The checks of `verify` on claims that are signed. -/
def checkClaims (env : SignerEnv ρ) (s : RuleDraftSigner) (claims : List (Json.CodePoints × Json))
    (rule : ρ) (userId : String) (now : ℕ) : Except Raised String :=
  if ¬ isText (Json.get? claims "aud") "research-rule-draft" ∨
      ¬ isText (Json.get? claims "key_version") s.keyVersion then .error invalid
  else if ¬ isText (Json.get? claims "schema_version") ruleDraftSchemaVersion then .error invalid
  else if unhashable (Json.get? claims "policy_hash") then .error .typeError
  else if ¬ (isText (Json.get? claims "policy_hash") (ruleDraftContractHash env) ∨
      isText (Json.get? claims "policy_hash") (legacyRuleDraftContractHash env)) then .error invalid
  else if ¬ isText (Json.get? claims "user_id") userId then .error (.draftTokenValidation .draftUserMismatch)
  else if ¬ isText (Json.get? claims "rule_digest") (canonicalRuleDigest env (some rule)) then
    .error (.draftTokenValidation .draftRuleMismatch)
  else
    match integer? (Json.get? claims "exp") with
    | none => .error (.draftTokenValidation .draftExpired)
    | some expiry =>
      if expiry ≤ (now / 1000000 : ℕ) then .error (.draftTokenValidation .draftExpired)
      else
        match Json.get? claims "nonce" with
        | some (.str nonce) => if nonce = [] then .error invalid else .ok (String.ofList (nonce.map Char.ofNat))
        | _ => .error invalid

/-- `verify` on the decoded parts of a token. -/
def verifyParts (env : SignerEnv ρ) (s : RuleDraftSigner) (signingInput : List Char) (header claims : Json)
    (signature : List UInt8) (rule : ρ) (userId : String) (now : ℕ) : Except Raised String :=
  if ¬ isHeader header then .error invalid
  else if signature ≠ env.hmacSha256 s.secret signingInput then .error invalid
  else
    match claims with
    | .obj claims => checkClaims env s claims rule userId now
    | _ => .error invalid

/-- The three parts of a token, decoded in turn. -/
def decodeParts (env : SignerEnv ρ) (encodedHeader encodedClaims encodedSignature : List Char) :
    Except Json.LoadError (Json × Json × List UInt8) := do
  let header ← decodeJson env encodedHeader
  let claims ← decodeJson env encodedClaims
  match Base64.decode encodedSignature with
  | none => .error .valueError
  | some signature => pure (header, claims, signature)

def verify (env : SignerEnv ρ) (s : RuleDraftSigner) (token : String) (rule : ρ) (userId : String)
    (now : ℕ) : Except Raised String :=
  match pySplit '.' token.toList with
  | [encodedHeader, encodedClaims, encodedSignature] =>
    match decodeParts env encodedHeader encodedClaims encodedSignature with
    | .error .valueError => .error invalid
    | .error .recursionError => .error .recursionError
    | .ok (header, claims, signature) =>
      verifyParts env s (encodedHeader ++ '.' :: encodedClaims) header claims signature rule userId now
  | _ => .error invalid

end QuantAgent.Research
