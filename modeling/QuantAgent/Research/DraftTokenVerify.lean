import QuantAgent.Research.DraftToken
import QuantAgent.Lib.Trace

namespace QuantAgent.Research
set_option autoImplicit true

theorem utf8Decode?_utf8Encode (text : List Char) : utf8Decode? (utf8Encode text) = some text := by
  have hbytes : ByteArray.mk (utf8Encode text).toArray = text.utf8Encode := by
    rw [utf8Encode, String.toByteArray_ofList]
  rw [utf8Decode?, hbytes, List.utf8Decode?_utf8Encode]
  rfl

theorem partText?_encode (text : List Char) : partText? (Base64.encode (utf8Encode text)) = some text := by
  rw [partText?, Base64.decode_encode, Option.bind_eq_bind, Option.bind_some, utf8Decode?_utf8Encode]

/-- An object of texts and integers comes back from its part, if it may nest at all. -/
theorem decodeJson_encodeJson {env : SignerEnv ρ} {members : List (Json.CodePoints × Json)}
    (hne : members ≠ []) (h : ∀ m ∈ members, (∀ n ∈ m.1, Json.Scalar n) ∧ Json.Flat m.2)
    (hsorted : (members.map Prod.fst).Pairwise fun a b => ¬ b < a) :
    decodeJson env (encodeJson (.obj members)) =
      if env.recursionLimit < 1 then .error .recursionError else .ok (.obj members) := by
  have hhead : (Json.dumps true (.obj members)).head? ≠ some '\ufeff' := by
    rw [Json.dumps_obj hsorted]
    exact nofun
  rw [decodeJson, encodeJson, partText?_encode]
  simp only [Json.loads, if_neg hhead, Json.scan_dumps hne h hsorted]
  rfl

theorem flat_text (s : String) : Json.Flat (text s) := .str fun _ => Json.scalar_of_mem_codePoints

theorem exp_lt {n : ℕ} (h : n < endOfTime) : n / 1000000 < 10 ^ Json.intMaxStrDigits := by
  have hseconds : n / 1000000 < 10 ^ 12 := by
    unfold endOfTime at h
    omega
  exact hseconds.trans_le (Nat.pow_le_pow_right (by decide) (by decide))

theorem decodeJson_header (env : SignerEnv ρ) : decodeJson env (encodeJson header) =
    if env.recursionLimit < 1 then .error .recursionError else .ok header := by
  refine decodeJson_encodeJson (List.cons_ne_nil _ _) ?_ ?_
  · intro m hm
    simp only [List.mem_cons, List.not_mem_nil, or_false] at hm
    rcases hm with rfl | rfl
    · exact ⟨fun _ => Json.scalar_of_mem_codePoints, flat_text _⟩
    · exact ⟨fun _ => Json.scalar_of_mem_codePoints, flat_text _⟩
  · change List.Pairwise _ (["alg", "typ"].map Json.codePoints)
    decide +kernel

theorem decodeJson_claims (env : SignerEnv ρ) (i : Issuance ρ) :
    decodeJson env (encodeJson (.obj (i.claims env))) =
      if env.recursionLimit < 1 then .error .recursionError else .ok (.obj (i.claims env)) := by
  have hkey : ∀ s, ∀ n ∈ Json.codePoints s, Json.Scalar n := fun _ _ => Json.scalar_of_mem_codePoints
  have hexp : i.exp < 10 ^ Json.intMaxStrDigits := exp_lt i.inTime
  have hiat : i.issuedAt / 1000000 < 10 ^ Json.intMaxStrDigits :=
    exp_lt ((Nat.le_add_right _ _).trans_lt i.inTime)
  refine decodeJson_encodeJson (List.cons_ne_nil _ _) ?_ ?_
  · simp only [Issuance.claims, List.forall_mem_cons]
    exact ⟨⟨hkey _, flat_text _⟩, ⟨hkey _, .int _ hexp⟩, ⟨hkey _, .int _ hiat⟩, ⟨hkey _, flat_text _⟩,
      ⟨hkey _, flat_text _⟩, ⟨hkey _, flat_text _⟩, ⟨hkey _, flat_text _⟩, ⟨hkey _, flat_text _⟩,
      ⟨hkey _, flat_text _⟩, List.forall_mem_nil _⟩
  · change List.Pairwise _ (["aud", "exp", "iat", "key_version", "nonce", "policy_hash", "rule_digest",
      "schema_version", "user_id"].map Json.codePoints)
    decide +kernel

theorem beq_codePoints (s t : String) : (Json.codePoints s == Json.codePoints t) = decide (s = t) := by
  rw [Bool.eq_iff_iff, beq_iff_eq, decide_eq_true_iff, Json.codePoints_injective.eq_iff]

theorem isText_text (s t : String) : isText (some (text s)) t = decide (s = t) := beq_codePoints s t

theorem isHeader_header : isHeader header = true := by decide +kernel

theorem text_codePoints (s : String) : String.ofList ((Json.codePoints s).map Char.ofNat) = s := by
  rw [Json.codePoints, List.map_map]
  have hid : Char.ofNat ∘ Char.toNat = id := funext Char.ofNat_toNat
  rw [hid, List.map_id, String.ofList_toList]

namespace Issuance

/-- The claims as `claims.get` finds them. -/
theorem get?_claims (env : SignerEnv ρ) (i : Issuance ρ) :
    Json.get? (i.claims env) "aud" = some (text "research-rule-draft") ∧
      Json.get? (i.claims env) "exp" = some (.int i.exp) ∧
      Json.get? (i.claims env) "key_version" = some (text i.keyVersion) ∧
      Json.get? (i.claims env) "nonce" = some (text i.nonce) ∧
      Json.get? (i.claims env) "policy_hash" = some (text i.contract) ∧
      Json.get? (i.claims env) "rule_digest" = some (text (canonicalRuleDigest env i.rule)) ∧
      Json.get? (i.claims env) "schema_version" = some (text ruleDraftSchemaVersion) ∧
      Json.get? (i.claims env) "user_id" = some (text i.userId) := by
  simp [Json.get?, claims, beq_codePoints]

end Issuance

/-- What the claims of a token must agree with. -/
structure Matches (env : SignerEnv ρ) (s : RuleDraftSigner) (rule : ρ) (userId : String) (now : ℕ)
    (i : Issuance ρ) : Prop where
  userId : i.userId = userId
  rule : canonicalJson env i.rule = canonicalJson env (some rule)
  keyVersion : i.keyVersion = s.keyVersion
  contract : i.contract = ruleDraftContractHash env ∨ i.contract = legacyRuleDraftContractHash env
  unexpired : now < i.exp * 1000000

/-- The checks on issued claims, one after another. -/
theorem checkClaims_issued (env : SignerEnv ρ) (s : RuleDraftSigner) (i : Issuance ρ) (rule : ρ)
    (userId : String) (now : ℕ) : checkClaims env s (i.claims env) rule userId now =
      if i.keyVersion ≠ s.keyVersion then .error invalid
      else if ¬ (i.contract = ruleDraftContractHash env ∨ i.contract = legacyRuleDraftContractHash env) then
        .error invalid
      else if i.userId ≠ userId then .error (.draftTokenValidation .draftUserMismatch)
      else if canonicalRuleDigest env i.rule ≠ canonicalRuleDigest env (some rule) then
        .error (.draftTokenValidation .draftRuleMismatch)
      else if i.exp ≤ now / 1000000 then .error (.draftTokenValidation .draftExpired)
      else .ok i.nonce := by
  obtain ⟨haud, hexp, hkey, hnonce, hpolicy, hdigest, hschema, huser⟩ := i.get?_claims env
  have hne : Json.codePoints i.nonce ≠ [] := by
    intro hnil
    exact i.nonce_ne (Json.codePoints_injective (hnil.trans (by rfl : [] = Json.codePoints "")))
  have hexpiry : ((i.exp : ℤ) ≤ (now / 1000000 : ℕ)) ↔ i.exp ≤ now / 1000000 := Nat.cast_le
  unfold checkClaims
  simp only [haud, hexp, hkey, hnonce, hpolicy, hdigest, hschema, huser, isText_text, decide_true,
    decide_eq_true_eq, not_true_eq_false, false_or, if_false, integer?, hexpiry]
  simp only [text, unhashable, Bool.false_eq_true, if_false, if_neg hne, text_codePoints]

theorem lt_exp_iff (i : Issuance ρ) (now : ℕ) : ¬ i.exp ≤ now / 1000000 ↔ now < i.exp * 1000000 := by
  rw [not_le, Nat.div_lt_iff_lt_mul (by decide)]

/-- On issued claims the checks return the nonce when everything agrees, and say what does not. -/
theorem checkClaims_cases {env : SignerEnv ρ} {i : Issuance ρ}
    (hsha : canonicalRuleDigest env i.rule = canonicalRuleDigest env (some rule) →
      canonicalJson env i.rule = canonicalJson env (some rule)) :
    checkClaims env s (i.claims env) rule userId now = .ok i.nonce ∧ Matches env s rule userId now i ∨
      (∃ code, checkClaims env s (i.claims env) rule userId now = .error (.draftTokenValidation code)) ∧
        ¬ Matches env s rule userId now i := by
  rw [checkClaims_issued]
  by_cases hversion : i.keyVersion = s.keyVersion
  swap
  · exact .inr ⟨⟨_, if_pos hversion⟩, fun h => hversion h.keyVersion⟩
  rw [if_neg (not_not.mpr hversion)]
  by_cases hcontract : i.contract = ruleDraftContractHash env ∨ i.contract = legacyRuleDraftContractHash env
  swap
  · exact .inr ⟨⟨_, if_pos hcontract⟩, fun h => hcontract h.contract⟩
  rw [if_neg (not_not.mpr hcontract)]
  by_cases huser : i.userId = userId
  swap
  · exact .inr ⟨⟨_, if_pos huser⟩, fun h => huser h.userId⟩
  rw [if_neg (not_not.mpr huser)]
  by_cases hrule : canonicalRuleDigest env i.rule = canonicalRuleDigest env (some rule)
  swap
  · refine .inr ⟨⟨_, if_pos hrule⟩, fun h => hrule ?_⟩
    rw [canonicalRuleDigest, h.rule, canonicalRuleDigest]
  rw [if_neg (not_not.mpr hrule)]
  by_cases hexpired : i.exp ≤ now / 1000000
  · refine .inr ⟨⟨_, if_pos hexpired⟩, fun h => ?_⟩
    exact (lt_exp_iff i now).mpr h.unexpired hexpired
  · exact .inl ⟨if_neg hexpired, huser, hsha hrule, hversion, hcontract, (lt_exp_iff i now).mp hexpired⟩

/-- The token carries the signature of the signer's key over the claims of the issuance. -/
def Carries (env : SignerEnv ρ) (s : RuleDraftSigner) (token : String) (i : Issuance ρ) : Prop :=
  ∃ signature, token.toList = i.signingInput env ++ '.' :: signature ∧ '.' ∉ signature ∧
    Base64.decode signature = some (env.hmacSha256 s.secret (i.signingInput env))

/-- How deep the arrays and objects of a part nest before anything is wrong with it. -/
def partDepth (part : List Char) : ℕ :=
  match partText? part with
  | none => 0
  | some text => if text.head? = some '\ufeff' then 0 else (Json.scan text).depth

/-- A token of three parts whose header nests too deep, or is JSON and the claims nest too deep. -/
def TooDeep (env : SignerEnv ρ) (token : String) : Prop :=
  ∃ header claims signature, pySplit '.' token.toList = [header, claims, signature] ∧
    (env.recursionLimit < partDepth header ∨
      (∃ value, decodeJson env header = .ok value) ∧ env.recursionLimit < partDepth claims)

theorem decodeJson_recursion_iff (env : SignerEnv ρ) (part : List Char) :
    decodeJson env part = .error .recursionError ↔ env.recursionLimit < partDepth part := by
  unfold decodeJson partDepth
  cases partText? part with
  | none => exact iff_of_false nofun (Nat.not_lt_zero _)
  | some text =>
    simp only [Json.loads]
    by_cases hbom : text.head? = some '\ufeff'
    · rw [if_pos hbom, if_pos hbom]
      exact iff_of_false nofun (Nat.not_lt_zero _)
    · rw [if_neg hbom, if_neg hbom]
      by_cases hdeep : env.recursionLimit < (Json.scan text).depth
      · rw [if_pos hdeep]
        exact iff_of_true rfl hdeep
      · rw [if_neg hdeep]
        refine iff_of_false ?_ hdeep
        split
        · split
          · exact nofun
          · exact nofun
        · exact nofun

theorem decodeParts_recursion_iff (env : SignerEnv ρ) (encodedHeader claims signature : List Char) :
    decodeParts env encodedHeader claims signature = .error .recursionError ↔
      env.recursionLimit < partDepth encodedHeader ∨
        (∃ value, decodeJson env encodedHeader = .ok value) ∧ env.recursionLimit < partDepth claims := by
  rw [← decodeJson_recursion_iff, ← decodeJson_recursion_iff, decodeParts]
  cases hheader : decodeJson env encodedHeader with
  | error e =>
    change Except.error e = _ ↔ _
    simp
  | ok value =>
    change (decodeJson env claims >>= _) = _ ↔ _
    cases hclaims : decodeJson env claims with
    | error e =>
      change Except.error e = _ ↔ _
      simp
    | ok value' =>
      rw [ok_bind]
      cases Base64.decode signature <;> simp [pure, Except.pure]

theorem pySplit_carries {env : SignerEnv ρ} {i : Issuance ρ} {token signature : List Char}
    (htoken : token = i.signingInput env ++ '.' :: signature) (hdot : '.' ∉ signature) :
    pySplit '.' token = [encodeJson header, encodeJson (.obj (i.claims env)), signature] := by
  have hheader : '.' ∉ encodeJson header := Base64.dot_notMem_encode _
  have hclaims : '.' ∉ encodeJson (.obj (i.claims env)) := Base64.dot_notMem_encode _
  rw [htoken, Issuance.signingInput, List.append_assoc, List.cons_append, pySplit_append_cons hheader,
    pySplit_append_cons hclaims, pySplit_of_notMem hdot]

/-- The parts that `verify` takes a token into. -/
theorem pySplit_three {token encodedHeader encodedClaims encodedSignature : List Char}
    (h : pySplit '.' token = [encodedHeader, encodedClaims, encodedSignature]) :
    token = (encodedHeader ++ '.' :: encodedClaims) ++ '.' :: encodedSignature ∧ '.' ∉ encodedSignature := by
  obtain ⟨-, ⟨hnil, -⟩ | ⟨rest, hrest, htoken⟩⟩ := pySplit_eq_cons h
  · cases hnil
  obtain ⟨-, ⟨hnil, -⟩ | ⟨rest', hrest', htoken'⟩⟩ := pySplit_eq_cons hrest.symm
  · cases hnil
  obtain ⟨hdot, ⟨-, hend⟩ | ⟨rest'', hrest'', -⟩⟩ := pySplit_eq_cons hrest'.symm
  · refine ⟨?_, hdot⟩
    rw [htoken, htoken', hend, List.append_assoc, List.cons_append]
  · exact absurd hrest''.symm (pySplit_ne_nil _ _)

section Verify
variable {env : SignerEnv ρ} {s : RuleDraftSigner} {token : String} {rule : ρ} {userId : String} {now : ℕ}

/-- A token that carries a signature gets to the checks on its claims. -/
theorem verify_carries {i : Issuance ρ} (hdeep : ¬ TooDeep env token) (h : Carries env s token i) :
    verify env s token rule userId now = checkClaims env s (i.claims env) rule userId now := by
  obtain ⟨signature, htoken, hdot, hsignature⟩ := h
  have hsplit := pySplit_carries htoken hdot
  have hlimit : ¬ env.recursionLimit < 1 := by
    intro hlimit
    refine hdeep ⟨_, _, _, hsplit, .inl ((decodeJson_recursion_iff env _).mp ?_)⟩
    rw [decodeJson_header, if_pos hlimit]
  have hparts : decodeParts env (encodeJson header) (encodeJson (.obj (i.claims env))) signature =
      .ok (header, .obj (i.claims env), env.hmacSha256 s.secret (i.signingInput env)) := by
    rw [decodeParts, decodeJson_header, decodeJson_claims, if_neg hlimit, if_neg hlimit, hsignature]
    rfl
  rw [verify, hsplit]
  simp only [hparts]
  rw [verifyParts, if_neg (not_not.mpr isHeader_header), Issuance.signingInput, if_neg (not_not.mpr rfl)]

/-- What gets past the signature check, past every other error, carries an issued signature. -/
theorem verify_cases {issued : List (Issuance ρ)} (hdeep : ¬ TooDeep env token)
    (hhmac : ∀ encodedHeader encodedClaims encodedSignature,
      pySplit '.' token.toList = [encodedHeader, encodedClaims, encodedSignature] →
      Base64.decode encodedSignature = some (env.hmacSha256 s.secret (encodedHeader ++ '.' :: encodedClaims)) →
      ∃ i ∈ issued, encodedHeader ++ '.' :: encodedClaims = i.signingInput env) :
    verify env s token rule userId now = .error invalid ∨ ∃ i ∈ issued, Carries env s token i := by
  unfold verify
  split
  · rename_i encodedHeader encodedClaims encodedSignature hsplit
    cases hparts : decodeParts env encodedHeader encodedClaims encodedSignature with
    | error e =>
      cases e with
      | valueError => exact .inl rfl
      | recursionError =>
        exact absurd ⟨_, _, _, hsplit, (decodeParts_recursion_iff env _ _ _).mp hparts⟩ hdeep
    | ok parts =>
      obtain ⟨header', claims', signature⟩ := parts
      simp only [verifyParts]
      by_cases hheader : isHeader header' = true
      swap
      · exact .inl (if_pos hheader)
      rw [if_neg (not_not.mpr hheader)]
      by_cases hsignature : signature = env.hmacSha256 s.secret (encodedHeader ++ '.' :: encodedClaims)
      swap
      · exact .inl (if_pos hsignature)
      have hdecode : Base64.decode encodedSignature = some signature := by
        obtain ⟨_, -, hparts⟩ := bind_ok_iff.mp hparts
        obtain ⟨_, -, hparts⟩ := bind_ok_iff.mp hparts
        split at hparts
        · cases hparts
        · rename_i hsome
          rw [hsome]
          simp only [pure, Except.pure, Except.ok.injEq, Prod.mk.injEq] at hparts
          rw [hparts.2.2]
      rw [hsignature] at hdecode
      obtain ⟨i, hi, hinput⟩ := hhmac _ _ _ hsplit hdecode
      obtain ⟨htoken, hdot⟩ := pySplit_three hsplit
      exact .inr ⟨i, hi, encodedSignature, hinput ▸ htoken, hdot, hinput ▸ hdecode⟩
  · exact .inl rfl

/-- `verify` returns the nonce of exactly the issued claims that agree, and else says that it does not. -/
structure Faithful (env : SignerEnv ρ) (s : RuleDraftSigner) (issued : List (Issuance ρ)) (token : String)
    (rule : ρ) (userId : String) (now : ℕ) : Prop where
  returns : ∀ nonce, verify env s token rule userId now = .ok nonce ↔
    ∃ i ∈ issued, Carries env s token i ∧ Matches env s rule userId now i ∧ nonce = i.nonce
  raises : ∀ raised, verify env s token rule userId now = .error raised →
    ∃ code, raised = .draftTokenValidation code

end Verify

section Concrete

/-- The hashes of one rule and one token, and a rule that is its own dump. -/
def plainEnv : SignerEnv Json where
  sha256Hex text :=
    if text = "quantagent-research-contract-v1" then
      "dfb7e30fee569f58e41570cb72c209bcca9025cda59d14117f34ec8067694ca6"
    else if text = "quantagent-research-only-preflight-v1" then
      "54d39b5a560f75aadbd000dcafc556c787be1a6e0492f21c02e61a33cd4eaac6"
    else "e11c8897a9113682d9210656c7718e2db20a60b6a6170e995b54f7205d7bf1c0"
  hmacSha256 _ _ :=
    [108, 251, 51, 100, 78, 150, 195, 63, 26, 127, 208, 6, 116, 56, 32, 125, 94, 229, 91, 255,
      81, 67, 130, 77, 199, 7, 55, 233, 247, 166, 98, 161]
  modelDump := id
  recursionLimit := 1000

def plainSigner : RuleDraftSigner where
  secret := "draft-secret"
  keyVersion := "v1"
  ttlSeconds := 600
  secret_ne := by decide +kernel
  keyVersion_ne := by decide +kernel
  ttl_pos := by decide

def plainRule : Json := .obj [(Json.codePoints "timeframe", text "daily")]

def plainIssuance : Issuance Json where
  keyVersion := "v1"
  contract := ruleDraftContractHash plainEnv
  rule := some plainRule
  userId := "7"
  issuedAt := 0
  ttlSeconds := 600
  nonce := "nonce"
  nonce_ne := by decide
  inTime := by decide

/-- A header of more brackets than the interpreter allows, and two empty parts. -/
def deepToken : String :=
  String.ofList (Base64.encode (utf8Encode (List.replicate 1001 '[')) ++ ['.', '.'])

theorem verify_deep {env : SignerEnv ρ} {s : RuleDraftSigner} {token : String}
    (hsplit : pySplit '.' token.toList = [encodedHeader, encodedClaims, encodedSignature])
    (hdeep : env.recursionLimit < partDepth encodedHeader) (rule : ρ) (userId : String) (now : ℕ) :
    verify env s token rule userId now = .error .recursionError := by
  have hparts := (decodeParts_recursion_iff env encodedHeader encodedClaims encodedSignature).mpr
    (.inl hdeep)
  rw [verify, hsplit]
  simp only [hparts]

theorem partDepth_brackets (n : ℕ) :
    partDepth (Base64.encode (utf8Encode (List.replicate n '['))) = n := by
  have hbom : ¬ (List.replicate n '[').head? = some '\ufeff' := by
    cases n with
    | zero => exact nofun
    | succ n => simp [List.replicate_succ]
  rw [partDepth, partText?_encode]
  simp only [if_neg hbom, Json.scan_brackets]

end Concrete

end QuantAgent.Research
