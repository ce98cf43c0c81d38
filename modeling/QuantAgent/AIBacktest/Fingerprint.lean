import QuantAgent.AIBacktest.Requests
import QuantAgent.Lib.JsonInjective

namespace QuantAgent.AIBacktest
open Json (Same DistinctKeys Plain FloatText)
set_option autoImplicit true

/-- A key of a Python dict. -/
inductive PyKey where
  | str (s : String)
  | other
deriving DecidableEq

/-- A Python value of a payload; what is no JSON value is `other`. -/
inductive PyValue (F : Type) where
  | none
  | bool (b : Bool)
  | int (n : ℤ)
  | float (x : F)
  | str (s : String)
  | list (items : List (PyValue F))
  | dict (members : List (PyKey × PyValue F))
  | other

/-- `unicodedata.normalize("NFC", text)`, `str.isspace`, `math.isfinite`, how `json.dumps` writes a
float, and the hash. -/
structure TextEnv (F : Type) where
  nfc : String → String
  isSpace : Char → Bool
  isFinite : F → Bool
  repr : F → String
  sha256Hex : String → String
  nfc_idem : ∀ s, nfc (nfc s) = nfc s
  repr_text : ∀ x, isFinite x = true → FloatText (repr x).toList

section Values
variable {F : Type} (env : TextEnv F)

def requestValidationFailed (message : String) : AppError :=
  ⟨422, "ai_backtest", "request_validation_failed", message, []⟩

/-- `members[key] = value` -/
def storeMember (members : List (PyKey × PyValue F)) (key : String) (value : PyValue F) :
    List (PyKey × PyValue F) :=
  match members with
  | [] => [(.str key, value)]
  | (stored, item) :: rest =>
    if stored = .str key then (stored, value) :: rest else (stored, item) :: storeMember rest key value

mutual

/-- `_canonical_json_value` -/
def canonicalJsonValue : PyValue F → Except AppError (PyValue F)
  | .str s => .ok (.str (env.nfc s))
  | .none => .ok .none
  | .bool b => .ok (.bool b)
  | .int n => .ok (.int n)
  | .float x =>
    if env.isFinite x then .ok (.float x)
    else .error (requestValidationFailed "Request contains a non-finite number")
  | .list items => do
    let items ← canonicalItems items
    pure (.list items)
  | .dict members => do
    let normalized ← canonicalMembers [] members
    pure (.dict normalized)
  | .other => .error (requestValidationFailed "Request contains a non-JSON value")

def canonicalItems : List (PyValue F) → Except AppError (List (PyValue F))
  | [] => .ok []
  | item :: rest => do
    let item ← canonicalJsonValue item
    let rest ← canonicalItems rest
    pure (item :: rest)

/-- The loop over the members: under one normalised key the last value stays. -/
def canonicalMembers (normalized : List (PyKey × PyValue F)) :
    List (PyKey × PyValue F) → Except AppError (List (PyKey × PyValue F))
  | [] => .ok normalized
  | (.other, _) :: _ => .error (requestValidationFailed "Request contains a non-string JSON key")
  | (.str key, item) :: rest => do
    let value ← canonicalJsonValue item
    canonicalMembers (storeMember normalized (env.nfc key) value) rest

end

mutual

/-- A value as JSON, with `onText` applied to all its texts and keys and every member kept. -/
def PyValue.toJson (onText : String → String) : PyValue F → Json
  | .none | .other => .null
  | .bool b => .bool b
  | .int n => .int n
  | .float x => .float (env.repr x).toList
  | .str s => .str (Json.codePoints (onText s))
  | .list items => .arr (itemsToJson onText items)
  | .dict members => .obj (membersToJson onText members)

def itemsToJson (onText : String → String) : List (PyValue F) → List Json
  | [] => []
  | item :: rest => item.toJson onText :: itemsToJson onText rest

def membersToJson (onText : String → String) : List (PyKey × PyValue F) → List (Json.CodePoints × Json)
  | [] => []
  | (.str key, item) :: rest =>
    (Json.codePoints (onText key), item.toJson onText) :: membersToJson onText rest
  | (.other, _) :: rest => membersToJson onText rest

end

/-- `" ".join(text.split())` -/
def collapse (text : String) : String :=
  String.ofList (" ".toList.intercalate
    ((text.toList.splitOnP env.isSpace).filter fun word => !word.isEmpty))

/-- `AICodeBacktestFlowRequest`, as far as the fingerprint reads it. -/
structure IntentPayload (F : Type) where
  naturalLanguagePrompt : String
  parsedStrategyJsonb : List (PyKey × PyValue F)
  parseConfidence : Option F
  parseModelName : Option String
  strategyId : Option String
  targetRuntime : String
  codePurpose : String
  benchmarkTicker : Option String
  dataSource : Option String
  reportModelName : Option String
  timeoutSeconds : ℤ
  memoryLimitMb : ℤ

def optionalText : Option String → PyValue F
  | some s => .str s
  | none => .none

/-- The entries of the intent that are canonicalised, in order. -/
def IntentPayload.fields (payload : IntentPayload F) : List (String × PyValue F) :=
  [("parsed_strategy_jsonb", .dict payload.parsedStrategyJsonb),
    ("parse_confidence", (payload.parseConfidence.map PyValue.float).getD .none),
    ("parse_model_name", optionalText payload.parseModelName),
    ("strategy_id", optionalText payload.strategyId),
    ("target_runtime", .str payload.targetRuntime),
    ("code_purpose", .str payload.codePurpose),
    ("benchmark_ticker", optionalText payload.benchmarkTicker),
    ("data_source", optionalText payload.dataSource),
    ("report_model_name", optionalText payload.reportModelName)]

/-- The intent, the canonicalised entries given. -/
def IntentPayload.intent (payload : IntentPayload F) (fields : List (PyKey × PyValue F)) : PyValue F :=
  .dict ((.str "natural_language_prompt", .str (collapse env (env.nfc payload.naturalLanguagePrompt))) ::
    (fields ++ [(.str "timeout_seconds", .int payload.timeoutSeconds),
      (.str "memory_limit_mb", .int payload.memoryLimitMb)]))

def requestFingerprintVersion : String := "ai-backtest-intent-v2"

/-- `json.dumps(intent, ensure_ascii=False, sort_keys=True, separators=(",", ":"))` -/
def canonicalText (intent : PyValue F) : String := String.ofList (Json.dumps false (intent.toJson env id))

def buildRequestFingerprint (payload : IntentPayload F) : Except AppError (String × String) := do
  let fields ← payload.fields.mapM fun field => do
    let value ← canonicalJsonValue env field.2
    pure (PyKey.str field.1, value)
  pure (requestFingerprintVersion, env.sha256Hex (canonicalText env (payload.intent env fields)))

/-- Equal up to the normal form of texts and keys, the order of members, and the blanks of the prompt. -/
structure SameIntent (p q : IntentPayload F) : Prop where
  prompt : collapse env (env.nfc p.naturalLanguagePrompt) = collapse env (env.nfc q.naturalLanguagePrompt)
  fields : List.Forall₂ Same (p.fields.map fun field => field.2.toJson env env.nfc)
    (q.fields.map fun field => field.2.toJson env env.nfc)
  timeout : p.timeoutSeconds = q.timeoutSeconds
  memory : p.memoryLimitMb = q.memoryLimitMb

/-- No object in the parsed strategy has two keys of one normal form. -/
def CollisionFree (payload : IntentPayload F) : Prop :=
  DistinctKeys ((PyValue.dict payload.parsedStrategyJsonb).toJson env env.nfc)

end Values

section Canonical
variable {F : Type} {env : TextEnv F}

/-- Induction over the values inside a value. -/
theorem PyValue.induct {P : PyValue F → Prop} (none : P .none) (bool : ∀ b, P (.bool b))
    (int : ∀ n, P (.int n)) (float : ∀ x, P (.float x)) (str : ∀ s, P (.str s))
    (list : ∀ items, (∀ v ∈ items, P v) → P (.list items))
    (dict : ∀ members, (∀ m ∈ members, P m.2) → P (.dict members)) (other : P .other) : ∀ v, P v
  | .none => none
  | .bool b => bool b
  | .int n => int n
  | .float x => float x
  | .str s => str s
  | .list items => list items fun v _ => induct none bool int float str list dict other v
  | .dict members => dict members fun m _ => induct none bool int float str list dict other m.2
  | .other => other
termination_by v => sizeOf v
decreasing_by
  · have := List.sizeOf_lt_of_mem ‹_›
    simp only [PyValue.list.sizeOf_spec]
    omega
  · have := List.sizeOf_lt_of_mem ‹m ∈ members›
    obtain ⟨key, value⟩ := m
    simp only [PyValue.dict.sizeOf_spec, Prod.mk.sizeOf_spec] at this ⊢
    omega

theorem itemsToJson_eq (onText : String → String) (items : List (PyValue F)) :
    itemsToJson env onText items = items.map (PyValue.toJson env onText) := by
  induction items with
  | nil => rfl
  | cons item items ih => rw [itemsToJson, ih, List.map_cons]

theorem membersToJson_append (onText : String → String) (xs ys : List (PyKey × PyValue F)) :
    membersToJson env onText (xs ++ ys) = membersToJson env onText xs ++ membersToJson env onText ys := by
  induction xs with
  | nil => rfl
  | cons m xs ih =>
    obtain ⟨key, item⟩ := m
    cases key with
    | str key => rw [List.cons_append, membersToJson, membersToJson, ih, List.cons_append]
    | other => rw [List.cons_append, membersToJson, membersToJson, ih]

theorem mem_membersToJson {onText : String → String} {members : List (PyKey × PyValue F)}
    (h : m ∈ membersToJson env onText members) :
    ∃ key item, (PyKey.str key, item) ∈ members ∧
      m = (Json.codePoints (onText key), item.toJson env onText) := by
  induction members with
  | nil => cases h
  | cons n members ih =>
    obtain ⟨key, item⟩ := n
    cases key with
    | str key =>
      rw [membersToJson] at h
      rcases List.mem_cons.mp h with rfl | h
      · exact ⟨key, item, List.mem_cons_self, rfl⟩
      · obtain ⟨key', item', hmem, hm⟩ := ih h
        exact ⟨key', item', List.mem_cons_of_mem _ hmem, hm⟩
    | other =>
      rw [membersToJson] at h
      obtain ⟨key', item', hmem, hm⟩ := ih h
      exact ⟨key', item', List.mem_cons_of_mem _ hmem, hm⟩

/-- A key that is not stored yet goes to the end. -/
theorem storeMember_new {members : List (PyKey × PyValue F)} {key : String} (value : PyValue F)
    (h : PyKey.str key ∉ members.map Prod.fst) :
    storeMember members key value = members ++ [(.str key, value)] := by
  induction members with
  | nil => rfl
  | cons m members ih =>
    obtain ⟨stored, item⟩ := m
    rw [List.map_cons, List.mem_cons, not_or] at h
    rw [storeMember, if_neg (Ne.symm h.1), ih h.2, List.cons_append]

theorem keys_storeMember (members : List (PyKey × PyValue F)) (key : String) (value : PyValue F) :
    (storeMember members key value).map Prod.fst = members.map Prod.fst ∨
      PyKey.str key ∉ members.map Prod.fst := by
  induction members with
  | nil => exact .inr List.not_mem_nil
  | cons m members ih =>
    obtain ⟨stored, item⟩ := m
    by_cases hkey : stored = .str key
    · rw [storeMember, if_pos hkey]
      exact .inl rfl
    · rw [storeMember, if_neg hkey]
      rcases ih with ih | ih
      · exact .inl (by rw [List.map_cons, List.map_cons, ih])
      · refine .inr fun hmem => ?_
        rcases List.mem_cons.mp hmem with h | h
        · exact hkey h.symm
        · exact ih h

theorem mem_storeMember {members : List (PyKey × PyValue F)} {key : String} {value : PyValue F}
    (h : m ∈ storeMember members key value) : m ∈ members ∨ m = (.str key, value) := by
  induction members with
  | nil => exact .inr (List.mem_singleton.mp h)
  | cons n members ih =>
    obtain ⟨stored, item⟩ := n
    rw [storeMember] at h
    split at h
    · rename_i hkey
      rcases List.mem_cons.mp h with h | h
      · rw [hkey] at h
        exact .inr h
      · exact .inl (List.mem_cons_of_mem _ h)
    · rcases List.mem_cons.mp h with h | h
      · exact .inl (h ▸ List.mem_cons_self)
      · rcases ih h with h | h
        · exact .inl (List.mem_cons_of_mem _ h)
        · exact .inr h

theorem codePoints_mem {onText : String → String} {members : List (PyKey × PyValue F)} {key : String}
    (hmem : stored ∈ members) (hkey : stored.1 = PyKey.str key) :
    Json.codePoints (onText key) ∈ (membersToJson env onText members).map Prod.fst := by
  induction members with
  | nil => cases hmem
  | cons m members ih =>
    obtain ⟨head, item⟩ := m
    rcases List.mem_cons.mp hmem with rfl | hrest
    · cases hkey
      exact List.mem_cons_self
    · cases head with
      | str text => exact List.mem_cons_of_mem _ (ih hrest)
      | other => exact ih hrest

/-- What the canonicaliser yields. -/
inductive Canonical (env : TextEnv F) : PyValue F → Prop where
  | none : Canonical env .none
  | bool (b : Bool) : Canonical env (.bool b)
  | int (n : ℤ) : Canonical env (.int n)
  | float (h : env.isFinite x = true) : Canonical env (.float x)
  | str (h : env.nfc s = s) : Canonical env (.str s)
  | list (h : ∀ v ∈ items, Canonical env v) : Canonical env (.list items)
  | dict (hkeys : ∀ m ∈ members, ∃ key, m.1 = PyKey.str key ∧ env.nfc key = key)
      (hnodup : (members.map Prod.fst).Nodup) (h : ∀ m ∈ members, Canonical env m.2) :
      Canonical env (.dict members)

theorem canonical_empty : Canonical env (.dict []) := .dict (by simp) (by simp) (by simp)

/-- The loop over members keeps canonical members canonical. -/
theorem canonicalMembers_canonical {members : List (PyKey × PyValue F)}
    (ih : ∀ m ∈ members, ∀ c, canonicalJsonValue env m.2 = .ok c → Canonical env c)
    (hacc : Canonical env (.dict normalized))
    (h : canonicalMembers env normalized members = .ok result) : Canonical env (.dict result) := by
  induction members generalizing normalized with
  | nil =>
    cases h
    exact hacc
  | cons m members ihm =>
    obtain ⟨key, item⟩ := m
    obtain ⟨hitem, hrest⟩ := List.forall_mem_cons.mp ih
    cases key with
    | other => cases h
    | str key =>
      rw [canonicalMembers] at h
      obtain ⟨value, hvalue, h⟩ := bind_ok_iff.mp h
      refine ihm hrest ?_ h
      cases hacc with
      | dict hkeys hnodup hvalues =>
        refine .dict (fun m hm => ?_) ?_ fun m hm => ?_
        · rcases mem_storeMember hm with hm | rfl
          · exact hkeys m hm
          · exact ⟨_, rfl, env.nfc_idem key⟩
        · rcases keys_storeMember normalized (env.nfc key) value with hsame | hnew
          · rw [hsame]
            exact hnodup
          · rw [storeMember_new value hnew, List.map_append, List.nodup_append]
            refine ⟨hnodup, List.nodup_singleton _, ?_⟩
            intro k hk k' hk' heq
            rw [heq, List.mem_singleton.mp hk'] at hk
            exact hnew hk
        · rcases mem_storeMember hm with hm | rfl
          · exact hvalues m hm
          · exact hitem value hvalue

theorem canonicalItems_ok {items ys : List (PyValue F)} (h : canonicalItems env items = .ok ys) :
    List.Forall₂ (fun item y => canonicalJsonValue env item = .ok y) items ys := by
  induction items generalizing ys with
  | nil =>
    cases h
    exact .nil
  | cons item items ih =>
    rw [canonicalItems] at h
    obtain ⟨y, hy, h⟩ := bind_ok_iff.mp h
    obtain ⟨rest, hrest, h⟩ := bind_ok_iff.mp h
    cases h
    exact .cons hy (ih hrest)

theorem canonicalJsonValue_canonical {v c : PyValue F} (h : canonicalJsonValue env v = .ok c) :
    Canonical env c := by
  induction v using PyValue.induct generalizing c with
  | none =>
    cases h
    exact .none
  | bool b =>
    cases h
    exact .bool b
  | int n =>
    cases h
    exact .int n
  | float x =>
    rw [canonicalJsonValue] at h
    split at h
    · rename_i hfinite
      cases h
      exact .float hfinite
    · cases h
  | str s =>
    cases h
    exact .str (env.nfc_idem s)
  | list items ih =>
    rw [canonicalJsonValue] at h
    obtain ⟨ys, hys, h⟩ := bind_ok_iff.mp h
    cases h
    refine .list fun y hy => ?_
    obtain ⟨item, hitem, hok⟩ := Json.exists_of_forall₂ (canonicalItems_ok hys).flip hy
    exact ih item hitem hok
  | dict members ih =>
    rw [canonicalJsonValue] at h
    obtain ⟨result, hresult, h⟩ := bind_ok_iff.mp h
    cases h
    exact canonicalMembers_canonical (fun m hm c hc => ih m hm hc) canonical_empty hresult
  | other => cases h

theorem canonicalItems_fixed {items : List (PyValue F)}
    (h : ∀ v ∈ items, canonicalJsonValue env v = .ok v) : canonicalItems env items = .ok items := by
  induction items with
  | nil => rfl
  | cons item items ih =>
    obtain ⟨hitem, hitems⟩ := List.forall_mem_cons.mp h
    rw [canonicalItems, hitem, ih hitems]
    rfl

theorem canonicalMembers_fixed {normalized members : List (PyKey × PyValue F)}
    (hkeys : ∀ m ∈ members, ∃ key, m.1 = PyKey.str key ∧ env.nfc key = key)
    (hnodup : ((normalized ++ members).map Prod.fst).Nodup)
    (h : ∀ m ∈ members, canonicalJsonValue env m.2 = .ok m.2) :
    canonicalMembers env normalized members = .ok (normalized ++ members) := by
  induction members generalizing normalized with
  | nil => rw [List.append_nil, canonicalMembers]
  | cons m members ih =>
    obtain ⟨key, item⟩ := m
    obtain ⟨hm, hmembers⟩ := List.forall_mem_cons.mp h
    obtain ⟨⟨text, rfl, hfixed⟩, hrest⟩ := List.forall_mem_cons.mp hkeys
    have hnew : PyKey.str text ∉ normalized.map Prod.fst := by
      intro hmem
      rw [List.map_append, List.nodup_append] at hnodup
      exact hnodup.2.2 _ hmem _ List.mem_cons_self rfl
    have hsplit : normalized ++ (PyKey.str text, item) :: members =
        (normalized ++ [(.str text, item)]) ++ members := by
      rw [List.append_assoc, List.singleton_append]
    rw [hsplit] at hnodup ⊢
    rw [canonicalMembers, hm, hfixed]
    have hstore := storeMember_new item hnew
    exact (congrArg (canonicalMembers env · members) hstore).trans (ih hrest hnodup hmembers)

/-- A canonical value is its own canonical value, and nothing is left to normalise in it. -/
theorem Canonical.fixed {v : PyValue F} (h : Canonical env v) : canonicalJsonValue env v = .ok v := by
  induction v using PyValue.induct with
  | none => rfl
  | bool b => rfl
  | int n => rfl
  | float x =>
    cases h with
    | float hfinite => rw [canonicalJsonValue, if_pos hfinite]
  | str s =>
    cases h with
    | str hfixed => rw [canonicalJsonValue, hfixed]
  | list items ih =>
    cases h with
    | list h =>
      rw [canonicalJsonValue, canonicalItems_fixed fun v hv => ih v hv (h v hv)]
      rfl
  | dict members ih =>
    cases h with
    | dict hkeys hnodup h =>
      have hmembers : canonicalMembers env [] members = .ok members :=
        canonicalMembers_fixed hkeys hnodup fun m hm => ih m hm (h m hm)
      rw [canonicalJsonValue, hmembers]
      rfl
  | other => cases h

theorem membersToJson_congr {onText onText' : String → String} {members : List (PyKey × PyValue F)}
    (hkeys : ∀ m ∈ members, ∀ key, m.1 = PyKey.str key → onText key = onText' key)
    (h : ∀ m ∈ members, m.2.toJson env onText = m.2.toJson env onText') :
    membersToJson env onText members = membersToJson env onText' members := by
  induction members with
  | nil => rfl
  | cons m members ih =>
    obtain ⟨key, item⟩ := m
    obtain ⟨hkey, hrest⟩ := List.forall_mem_cons.mp hkeys
    obtain ⟨hitem, hitems⟩ := List.forall_mem_cons.mp h
    cases key with
    | str key => rw [membersToJson, membersToJson, hkey key rfl, hitem, ih hrest hitems]
    | other => rw [membersToJson, membersToJson, ih hrest hitems]

theorem Canonical.toJson_nfc {v : PyValue F} (h : Canonical env v) :
    v.toJson env env.nfc = v.toJson env id := by
  induction v using PyValue.induct with
  | none => rfl
  | bool b => rfl
  | int n => rfl
  | float x => rfl
  | str s =>
    cases h with
    | str hfixed => rw [PyValue.toJson, hfixed, PyValue.toJson, id]
  | list items ih =>
    cases h with
    | list h =>
      rw [PyValue.toJson, PyValue.toJson, itemsToJson_eq, itemsToJson_eq,
        List.map_congr_left fun v hv => ih v hv (h v hv)]
  | dict members ih =>
    cases h with
    | dict hkeys hnodup h =>
      rw [PyValue.toJson, PyValue.toJson]
      congr 1
      refine membersToJson_congr (fun m hm key hkey => ?_) fun m hm => ih m hm (h m hm)
      obtain ⟨text, htext, hfixed⟩ := hkeys m hm
      rw [hkey] at htext
      cases htext
      exact hfixed
  | other => rfl

def PyKey.codePoints : PyKey → Json.CodePoints
  | .str key => Json.codePoints key
  | .other => []

theorem keys_membersToJson {onText : String → String} {members : List (PyKey × PyValue F)}
    (h : ∀ m ∈ members, ∃ key, m.1 = PyKey.str key ∧ onText key = key) :
    (membersToJson env onText members).map Prod.fst =
      (members.map Prod.fst).map PyKey.codePoints := by
  induction members with
  | nil => rfl
  | cons m members ih =>
    obtain ⟨key, item⟩ := m
    obtain ⟨⟨text, rfl, hfixed⟩, hmembers⟩ := List.forall_mem_cons.mp h
    rw [membersToJson, List.map_cons, ih hmembers, hfixed]
    rfl

theorem Canonical.distinctKeys {v : PyValue F} (h : Canonical env v) :
    DistinctKeys (v.toJson env env.nfc) := by
  induction v using PyValue.induct with
  | none => exact .null
  | bool b => exact .bool b
  | int n => exact .int n
  | float x => exact .float _
  | str s => exact .str _
  | list items ih =>
    cases h with
    | list h =>
      rw [PyValue.toJson, itemsToJson_eq]
      refine .arr fun json hjson => ?_
      obtain ⟨v, hv, rfl⟩ := List.mem_map.mp hjson
      exact ih v hv (h v hv)
  | dict members ih =>
    cases h with
    | dict hkeys hnodup h =>
      rw [PyValue.toJson]
      refine .obj ?_ fun m hm => ?_
      · rw [keys_membersToJson hkeys]
        refine hnodup.map_on fun k hk k' hk' heq => ?_
        obtain ⟨m, hm, rfl⟩ := List.mem_map.mp hk
        obtain ⟨m', hm', rfl⟩ := List.mem_map.mp hk'
        obtain ⟨key, hkey, -⟩ := hkeys m hm
        obtain ⟨key', hkey', -⟩ := hkeys m' hm'
        rw [hkey, hkey'] at heq ⊢
        exact congrArg PyKey.str (Json.codePoints_injective heq)
      · obtain ⟨key, item, hmem, rfl⟩ := mem_membersToJson hm
        exact ih _ hmem (h _ hmem)
  | other => exact .null

/-- What is written of a canonical value can be told apart. -/
theorem Canonical.plain {v : PyValue F} (h : Canonical env v) : Plain (v.toJson env id) := by
  induction v using PyValue.induct with
  | none => exact .null
  | bool b => exact .bool b
  | int n => exact .int n
  | float x =>
    cases h with
    | float hfinite => exact .float (env.repr_text x hfinite)
  | str s => exact .str fun _ hn => Json.scalar_of_mem_codePoints hn
  | list items ih =>
    cases h with
    | list h =>
      rw [PyValue.toJson, itemsToJson_eq]
      refine .arr fun json hjson => ?_
      obtain ⟨v, hv, rfl⟩ := List.mem_map.mp hjson
      exact ih v hv (h v hv)
  | dict members ih =>
    cases h with
    | dict hkeys hnodup h =>
      rw [PyValue.toJson]
      refine .obj (fun m hm => ?_) fun m hm => ?_
      · obtain ⟨key, item, hmem, rfl⟩ := mem_membersToJson hm
        exact fun _ hn => Json.scalar_of_mem_codePoints hn
      · obtain ⟨key, item, hmem, rfl⟩ := mem_membersToJson hm
        exact ih _ hmem (h _ hmem)
  | other => exact .null

/-- While no normal form of a key comes twice, every member is stored. -/
theorem canonicalMembers_toJson {normalized members result : List (PyKey × PyValue F)}
    (ih : ∀ m ∈ members, ∀ c, canonicalJsonValue env m.2 = .ok c →
      DistinctKeys (m.2.toJson env env.nfc) → c.toJson env id = m.2.toJson env env.nfc)
    (hvalues : ∀ m ∈ membersToJson env env.nfc members, DistinctKeys m.2)
    (hnodup : ((membersToJson env id normalized ++ membersToJson env env.nfc members).map
      Prod.fst).Nodup)
    (h : canonicalMembers env normalized members = .ok result) :
    membersToJson env id result =
      membersToJson env id normalized ++ membersToJson env env.nfc members := by
  induction members generalizing normalized with
  | nil =>
    cases h
    rw [membersToJson, List.append_nil]
  | cons m members ihm =>
    obtain ⟨key, item⟩ := m
    obtain ⟨hitem, hrest⟩ := List.forall_mem_cons.mp ih
    cases key with
    | other => cases h
    | str key =>
      rw [canonicalMembers] at h
      obtain ⟨value, hvalue, h⟩ := bind_ok_iff.mp h
      rw [membersToJson] at hvalues hnodup ⊢
      obtain ⟨hdistinct, hvalues⟩ := List.forall_mem_cons.mp hvalues
      have hsame : value.toJson env id = item.toJson env env.nfc := hitem value hvalue hdistinct
      have hnew : PyKey.str (env.nfc key) ∉ normalized.map Prod.fst := by
        intro hmem
        obtain ⟨stored, hstored, hkey⟩ := List.mem_map.mp hmem
        have hjson : Json.codePoints (env.nfc key) ∈ (membersToJson env id normalized).map Prod.fst :=
          codePoints_mem hstored hkey
        rw [List.map_append, List.nodup_append] at hnodup
        exact hnodup.2.2 _ hjson _ List.mem_cons_self rfl
      rw [storeMember_new value hnew] at h
      have hstore : membersToJson env id (normalized ++ [(.str (env.nfc key), value)]) =
          membersToJson env id normalized ++
            [(Json.codePoints (env.nfc key), item.toJson env env.nfc)] := by
        rw [membersToJson_append, membersToJson, membersToJson, hsame, id]
      have hresult := ihm hrest hvalues (by
        rw [hstore, List.append_assoc, List.singleton_append]
        exact hnodup) h
      rw [hresult, hstore, List.append_assoc, List.singleton_append]

/-- Without colliding keys, the canonical value is the value with its texts and keys normalised. -/
theorem canonicalJsonValue_toJson {v c : PyValue F} (h : canonicalJsonValue env v = .ok c)
    (hdistinct : DistinctKeys (v.toJson env env.nfc)) : c.toJson env id = v.toJson env env.nfc := by
  induction v using PyValue.induct generalizing c with
  | none =>
    cases h
    rfl
  | bool b =>
    cases h
    rfl
  | int n =>
    cases h
    rfl
  | float x =>
    rw [canonicalJsonValue] at h
    split at h
    · cases h
      rfl
    · cases h
  | str s =>
    cases h
    rfl
  | list items ih =>
    rw [canonicalJsonValue] at h
    obtain ⟨ys, hys, h⟩ := bind_ok_iff.mp h
    cases h
    rw [PyValue.toJson, itemsToJson_eq] at hdistinct
    cases hdistinct with
    | arr hdistinct =>
      rw [PyValue.toJson, PyValue.toJson, itemsToJson_eq, itemsToJson_eq]
      congr 1
      refine (Json.map_eq_of_forall₂ (canonicalItems_ok hys) fun item hitem y hy => ?_).symm
      exact (ih item hitem hy (hdistinct _ (List.mem_map_of_mem hitem))).symm
  | dict members ih =>
    rw [canonicalJsonValue] at h
    obtain ⟨result, hresult, h⟩ := bind_ok_iff.mp h
    cases h
    rw [PyValue.toJson] at hdistinct
    cases hdistinct with
    | obj hnodup hvalues =>
      rw [PyValue.toJson, PyValue.toJson]
      congr 1
      exact @canonicalMembers_toJson _ _ [] members result (fun m hm c hc => ih m hm hc) hvalues hnodup
        hresult
  | other => cases h

/-- The canonicalised entries of the intent, under their names. -/
def Entries (env : TextEnv F) (payload : IntentPayload F) (fields : List (PyKey × PyValue F)) : Prop :=
  List.Forall₂ (fun field entry => entry.1 = PyKey.str field.1 ∧
    canonicalJsonValue env field.2 = .ok entry.2) payload.fields fields

theorem mapM_entries {fields : List (String × PyValue F)} {entries : List (PyKey × PyValue F)} :
    (fields.mapM fun field => do
      let value ← canonicalJsonValue env field.2
      pure (PyKey.str field.1, value)) = .ok entries ↔
    List.Forall₂ (fun field entry => entry.1 = PyKey.str field.1 ∧
      canonicalJsonValue env field.2 = .ok entry.2) fields entries := by
  induction fields generalizing entries with
  | nil =>
    rw [List.mapM_nil, List.forall₂_nil_left_iff]
    exact ⟨fun h => (Except.ok.inj h).symm, fun h => h ▸ rfl⟩
  | cons field fields ih =>
    rw [List.mapM_cons, bind_ok_iff, List.forall₂_cons_left_iff]
    constructor
    · rintro ⟨entry, hentry, h⟩
      obtain ⟨value, hvalue, hpure⟩ := bind_ok_iff.mp hentry
      obtain ⟨rest, hrest, hcons⟩ := bind_ok_iff.mp h
      cases hpure
      cases hcons
      exact ⟨_, rest, ⟨rfl, hvalue⟩, ih.mp hrest, rfl⟩
    · rintro ⟨⟨key, value⟩, rest, ⟨rfl, hvalue⟩, hrest, rfl⟩
      refine ⟨(.str field.1, value), bind_ok_iff.mpr ⟨value, hvalue, rfl⟩, ?_⟩
      exact bind_ok_iff.mpr ⟨rest, ih.mpr hrest, rfl⟩

theorem buildRequestFingerprint_ok {payload : IntentPayload F} :
    buildRequestFingerprint env payload = .ok fingerprint ↔ ∃ fields, Entries env payload fields ∧
      fingerprint = (requestFingerprintVersion,
        env.sha256Hex (canonicalText env (payload.intent env fields))) := by
  rw [buildRequestFingerprint, bind_ok_iff]
  constructor
  · rintro ⟨fields, hfields, h⟩
    exact ⟨fields, mapM_entries.mp hfields, (Except.ok.inj h).symm⟩
  · rintro ⟨fields, hfields, rfl⟩
    exact ⟨fields, mapM_entries.mpr hfields, rfl⟩

theorem entries_members {raw : List (String × PyValue F)} {entries : List (PyKey × PyValue F)}
    (h : List.Forall₂ (fun field entry => entry.1 = PyKey.str field.1 ∧
      canonicalJsonValue env field.2 = .ok entry.2) raw entries) :
    (membersToJson env id entries).map Prod.fst = raw.map (fun field => Json.codePoints field.1) ∧
      (membersToJson env id entries).map Prod.snd = entries.map fun entry => entry.2.toJson env id := by
  induction h with
  | nil => exact ⟨rfl, rfl⟩
  | @cons field entry _ _ hentry _ ih =>
    obtain ⟨key, value⟩ := entry
    obtain ⟨rfl, -⟩ := hentry
    rw [membersToJson]
    exact ⟨congrArg (Json.codePoints field.1 :: ·) ih.1, congrArg (value.toJson env id :: ·) ih.2⟩

/-- The names in the intent. -/
def intentNames : List String :=
  ["natural_language_prompt", "parsed_strategy_jsonb", "parse_confidence", "parse_model_name",
    "strategy_id", "target_runtime", "code_purpose", "benchmark_ticker", "data_source",
    "report_model_name", "timeout_seconds", "memory_limit_mb"]

/-- The members of the intent as JSON. -/
def intentMembers (env : TextEnv F) (payload : IntentPayload F) (fields : List (PyKey × PyValue F)) :
    List (Json.CodePoints × Json) :=
  (Json.codePoints "natural_language_prompt",
    .str (Json.codePoints (collapse env (env.nfc payload.naturalLanguagePrompt)))) ::
    (membersToJson env id fields ++ [(Json.codePoints "timeout_seconds", .int payload.timeoutSeconds),
      (Json.codePoints "memory_limit_mb", .int payload.memoryLimitMb)])

theorem intent_toJson (payload : IntentPayload F) (fields : List (PyKey × PyValue F)) :
    (payload.intent env fields).toJson env id = .obj (intentMembers env payload fields) := by
  rw [IntentPayload.intent, PyValue.toJson, membersToJson, membersToJson_append]
  rfl

theorem keys_intentMembers {payload : IntentPayload F} {fields : List (PyKey × PyValue F)}
    (h : Entries env payload fields) :
    (intentMembers env payload fields).map Prod.fst = intentNames.map Json.codePoints := by
  rw [intentMembers, List.map_cons, List.map_append, (entries_members h).1]
  rfl

theorem nodup_intentNames : (intentNames.map Json.codePoints).Nodup :=
  List.Nodup.map Json.codePoints_injective (by decide)

theorem values_intentMembers {payload : IntentPayload F} {fields : List (PyKey × PyValue F)}
    (h : Entries env payload fields) :
    (intentMembers env payload fields).map Prod.snd =
      .str (Json.codePoints (collapse env (env.nfc payload.naturalLanguagePrompt))) ::
        (fields.map (fun entry => entry.2.toJson env id) ++
          [.int payload.timeoutSeconds, .int payload.memoryLimitMb]) := by
  rw [intentMembers, List.map_cons, List.map_append, (entries_members h).2]
  rfl

theorem Entries.canonical {payload : IntentPayload F} {fields : List (PyKey × PyValue F)}
    (h : Entries env payload fields) : ∀ entry ∈ fields, Canonical env entry.2 := by
  intro entry hentry
  obtain ⟨field, -, -, hok⟩ := Json.exists_of_forall₂ h.flip hentry
  exact canonicalJsonValue_canonical hok

/-- What is written of an intent can be told apart, and no name comes twice in it. -/
theorem intentMembers_wellFormed {payload : IntentPayload F} {fields : List (PyKey × PyValue F)}
    (h : Entries env payload fields) :
    Plain (.obj (intentMembers env payload fields)) ∧
      DistinctKeys (.obj (intentMembers env payload fields)) := by
  have hvalue : ∀ v ∈ (intentMembers env payload fields).map Prod.snd, Plain v ∧ DistinctKeys v := by
    intro v hv
    rw [values_intentMembers h] at hv
    rcases List.mem_cons.mp hv with rfl | hv
    · exact ⟨.str fun _ hn => Json.scalar_of_mem_codePoints hn, .str _⟩
    · rcases List.mem_append.mp hv with hv | hv
      · obtain ⟨entry, hentry, rfl⟩ := List.mem_map.mp hv
        have hcanonical := h.canonical entry hentry
        exact ⟨hcanonical.plain, hcanonical.toJson_nfc ▸ hcanonical.distinctKeys⟩
      · rw [List.mem_cons, List.mem_singleton] at hv
        rcases hv with rfl | rfl
        · exact ⟨.int _, .int _⟩
        · exact ⟨.int _, .int _⟩
  constructor
  · refine .obj (fun m hm n hn => ?_) fun m hm => (hvalue _ (List.mem_map_of_mem hm)).1
    have hkey := List.mem_map_of_mem (f := Prod.fst) hm
    rw [keys_intentMembers h] at hkey
    obtain ⟨name, -, hname⟩ := List.mem_map.mp hkey
    exact Json.scalar_of_mem_codePoints (hname ▸ hn)
  · refine .obj ?_ fun m hm => (hvalue _ (List.mem_map_of_mem hm)).2
    rw [keys_intentMembers h]
    exact nodup_intentNames

theorem CollisionFree.fields {payload : IntentPayload F} (h : CollisionFree env payload) :
    ∀ field ∈ payload.fields, DistinctKeys (field.2.toJson env env.nfc) := by
  have htext : ∀ text : Option String, DistinctKeys ((optionalText text : PyValue F).toJson env env.nfc) := by
    intro text
    cases text with
    | none => exact .null
    | some s => exact .str _
  have hconfidence : DistinctKeys
      (((payload.parseConfidence.map PyValue.float).getD .none).toJson env env.nfc) := by
    cases payload.parseConfidence with
    | none => exact .null
    | some x => exact .float _
  simp only [IntentPayload.fields, List.forall_mem_cons]
  exact ⟨h, hconfidence, htext _, htext _, .str _, .str _, htext _, htext _, htext _, nofun⟩

/-- Without collisions, the canonical entries are the fields with their texts normalised. -/
theorem Entries.toJson {payload : IntentPayload F} {fields : List (PyKey × PyValue F)}
    (h : Entries env payload fields) (hfree : CollisionFree env payload) :
    fields.map (fun entry => entry.2.toJson env id) =
      payload.fields.map fun field => field.2.toJson env env.nfc := by
  refine (Json.map_eq_of_forall₂ h fun field hfield entry hentry => ?_).symm
  exact (canonicalJsonValue_toJson hentry.2 (hfree.fields field hfield)).symm

/-- Without collisions, the texts of two intents are the same exactly when the intents are. -/
theorem canonicalText_eq_iff {p q : IntentPayload F} {fields fields' : List (PyKey × PyValue F)}
    (hp : Entries env p fields) (hq : Entries env q fields') (hpfree : CollisionFree env p)
    (hqfree : CollisionFree env q) :
    canonicalText env (p.intent env fields) = canonicalText env (q.intent env fields') ↔
      SameIntent env p q := by
  have hwritten : canonicalText env (p.intent env fields) = canonicalText env (q.intent env fields') ↔
      Same (.obj (intentMembers env p fields)) (.obj (intentMembers env q fields')) := by
    rw [canonicalText, canonicalText, intent_toJson, intent_toJson, String.ofList_inj]
    exact ⟨fun h => Json.same_of_dumps_eq (intentMembers_wellFormed hp).1 (intentMembers_wellFormed hq).1 h,
      fun h => Json.dumps_congr h (intentMembers_wellFormed hp).2 false⟩
  have hkeys : (intentMembers env p fields).map Prod.fst = (intentMembers env q fields').map Prod.fst := by
    rw [keys_intentMembers hp, keys_intentMembers hq]
  have hnodup : ((intentMembers env q fields').map Prod.fst).Nodup := by
    rw [keys_intentMembers hq]
    exact nodup_intentNames
  rw [hwritten, Json.same_obj_iff hkeys hnodup, values_intentMembers hp, values_intentMembers hq,
    hp.toJson hpfree, hq.toJson hqfree, List.forall₂_cons]
  constructor
  · rintro ⟨hprompt, hrest⟩
    have hfields := List.forall₂_take_append _ _ _ hrest
    have hnumbers := List.forall₂_drop_append _ _ _ hrest
    have hlength : (q.fields.map fun field => field.2.toJson env env.nfc).length =
        (p.fields.map fun field => field.2.toJson env env.nfc).length := rfl
    rw [hlength, List.take_left] at hfields
    rw [hlength, List.drop_left, List.forall₂_cons, List.forall₂_cons] at hnumbers
    obtain ⟨htimeout, hmemory, -⟩ := hnumbers
    exact ⟨Json.codePoints_injective hprompt.str_inj, hfields, htimeout.int_inj, hmemory.int_inj⟩
  · intro h
    refine ⟨?_, ?_⟩
    · rw [h.prompt]
      exact .str _
    · refine List.rel_append h.fields ?_
      rw [h.timeout, h.memory]
      exact .cons (.int _) (.cons (.int _) .nil)

/-- A payload with a collision has the fingerprint of one without, whose intent is another. -/
theorem exists_twin {p : IntentPayload F} (hp : Entries env p fields) (hfree : ¬ CollisionFree env p) :
    ∃ q, Entries env q fields ∧ CollisionFree env q ∧ ¬ SameIntent env p q ∧
      p.intent env fields = q.intent env fields := by
  obtain ⟨entry, rest, ⟨hkey, hvalue⟩, hrest, rfl⟩ := List.forall₂_cons_left_iff.mp hp
  obtain ⟨key, value⟩ := entry
  have hcanonical := canonicalJsonValue_canonical hvalue
  rw [canonicalJsonValue] at hvalue
  obtain ⟨result, hresult, hdict⟩ := bind_ok_iff.mp hvalue
  cases hdict
  refine ⟨{ p with parsedStrategyJsonb := result }, ?_, hcanonical.distinctKeys, ?_, rfl⟩
  · exact .cons ⟨hkey, hcanonical.fixed⟩ hrest
  · intro hsame
    have hparsed := (List.forall₂_cons.mp hsame.fields).1
    exact hfree (hparsed.distinctKeys hcanonical.distinctKeys)

/-- The fingerprints of a payload and of those without colliding keys are equal exactly when the
intents are, if and only if the payload has no colliding keys itself. -/
theorem fingerprint_faithful_iff (hsha : Function.Injective env.sha256Hex) {p : IntentPayload F}
    (hp : buildRequestFingerprint env p = .ok fingerprint) :
    (∀ q fingerprint', buildRequestFingerprint env q = .ok fingerprint' → CollisionFree env q →
      (fingerprint = fingerprint' ↔ SameIntent env p q)) ↔ CollisionFree env p := by
  obtain ⟨fields, hfields, rfl⟩ := buildRequestFingerprint_ok.mp hp
  constructor
  · intro h
    by_contra hfree
    obtain ⟨q, hq, hqfree, hdiffer, hintent⟩ := exists_twin hfields hfree
    have hfingerprint := buildRequestFingerprint_ok.mpr ⟨fields, hq, rfl⟩
    rw [← hintent] at hfingerprint
    exact hdiffer ((h q _ hfingerprint hqfree).mp rfl)
  · intro hfree q fingerprint' hq hqfree
    obtain ⟨fields', hfields', rfl⟩ := buildRequestFingerprint_ok.mp hq
    rw [Prod.mk.injEq, hsha.eq_iff, canonicalText_eq_iff hfields hfields' hfree hqfree]
    exact and_iff_right rfl

end Canonical

section Example

/-- The canonical text of the payload below. -/
def collidingText : String :=
  "\x7b\"benchmark_ticker\":null,\"code_purpose\":\"backtest\",\"data_source\":null" ++
    ",\"memory_limit_mb\":512,\"natural_language_prompt\":\"buy\"" ++
    ",\"parse_confidence\":null,\"parse_model_name\":null" ++
    ",\"parsed_strategy_jsonb\":\x7b\"é\":2\x7d,\"report_model_name\":null" ++
    ",\"strategy_id\":null,\"target_runtime\":\"python\",\"timeout_seconds\":300\x7d"

def collidingDigest : String := "1e286c982866da28a3f0449c6cbb1f0786a9533b51ef03e5680c71b104d82671"

/-- The normal form, the numbers and the hash of the payloads below. -/
def sampleEnv : TextEnv ℚ where
  nfc s := if s = "e\u0301" then "é" else s
  isSpace c := c.isWhitespace
  isFinite x := decide (x = 1 / 2)
  repr _ := "0.5"
  sha256Hex := Equiv.swap collidingText collidingDigest
  nfc_idem s := by
    by_cases h : s = "e\u0301"
    · rw [if_pos h]
      decide
    · rw [if_neg h, if_neg h]
  repr_text _ _ := ⟨by decide, by decide⟩

/-- A request with the given parsed strategy. -/
def samplePayload (parsed : List (PyKey × PyValue ℚ)) : IntentPayload ℚ where
  naturalLanguagePrompt := "buy"
  parsedStrategyJsonb := parsed
  parseConfidence := none
  parseModelName := none
  strategyId := none
  targetRuntime := "python"
  codePurpose := "backtest"
  benchmarkTicker := none
  dataSource := none
  reportModelName := none
  timeoutSeconds := 300
  memoryLimitMb := 512

/-- Two keys that are written differently and read the same. -/
def collidingPayload : IntentPayload ℚ := samplePayload [(.str "é", .int 1), (.str "e\u0301", .int 2)]

def plainPayload : IntentPayload ℚ := samplePayload [(.str "é", .int 2)]

theorem sampleEnv_nfc (h : s ≠ "e\u0301") : sampleEnv.nfc s = s := if_neg h

theorem sampleEnv_nfc_combining : sampleEnv.nfc "e\u0301" = "é" :=
  (if_pos rfl : (if "e\u0301" = "e\u0301" then "é" else "e\u0301") = "é")

/-- The canonical entries of both. -/
def sampleFields : List (PyKey × PyValue ℚ) :=
  [(.str "parsed_strategy_jsonb", .dict [(.str "é", .int 2)]), (.str "parse_confidence", .none),
    (.str "parse_model_name", .none), (.str "strategy_id", .none), (.str "target_runtime", .str "python"),
    (.str "code_purpose", .str "backtest"), (.str "benchmark_ticker", .none), (.str "data_source", .none),
    (.str "report_model_name", .none)]

theorem sampleEntries {parsed : List (PyKey × PyValue ℚ)}
    (h : canonicalMembers sampleEnv [] parsed = .ok [(.str "é", .int 2)]) :
    Entries sampleEnv (samplePayload parsed) sampleFields := by
  have htext : ∀ s : String, s ≠ "e\u0301" →
      canonicalJsonValue sampleEnv (.str s) = .ok (.str s) := by
    intro s hs
    rw [canonicalJsonValue, sampleEnv_nfc hs]
  have hparsed : canonicalJsonValue sampleEnv (.dict parsed) = .ok (.dict [(.str "é", .int 2)]) := by
    rw [canonicalJsonValue, h]
    rfl
  exact .cons ⟨rfl, hparsed⟩ (.cons ⟨rfl, rfl⟩ (.cons ⟨rfl, rfl⟩ (.cons ⟨rfl, rfl⟩
    (.cons ⟨rfl, htext "python" (by decide)⟩ (.cons ⟨rfl, htext "backtest" (by decide)⟩
      (.cons ⟨rfl, rfl⟩ (.cons ⟨rfl, rfl⟩ (.cons ⟨rfl, rfl⟩ .nil))))))))

theorem canonicalMembers_colliding :
    canonicalMembers sampleEnv [] [(.str "é", .int 1), (.str "e\u0301", .int 2)] =
      .ok [(.str "é", .int 2)] := by
  have hplain : sampleEnv.nfc "é" = "é" := sampleEnv_nfc (by decide)
  simp only [canonicalMembers, canonicalJsonValue, hplain, sampleEnv_nfc_combining]
  rfl

theorem canonicalMembers_plain :
    canonicalMembers sampleEnv [] [(.str "é", .int 2)] = .ok [(.str "é", .int 2)] := by
  have hplain : sampleEnv.nfc "é" = "é" := sampleEnv_nfc (by decide)
  simp only [canonicalMembers, canonicalJsonValue, hplain]
  rfl

theorem collisionFree_plain : CollisionFree sampleEnv plainPayload :=
  .obj (List.nodup_singleton _) fun m hm => by
    rw [List.mem_singleton.mp hm]
    exact .int 2

theorem not_collisionFree_colliding : ¬ CollisionFree sampleEnv collidingPayload := by
  intro h
  rw [CollisionFree, PyValue.toJson] at h
  cases h with
  | obj hnodup _ =>
    have hplain : sampleEnv.nfc "é" = "é" := sampleEnv_nfc (by decide)
    simp [collidingPayload, samplePayload, membersToJson, hplain, sampleEnv_nfc_combining] at hnodup

theorem fingerprint_faithful_iff_plain :
    (∀ q fingerprint', buildRequestFingerprint sampleEnv q = .ok fingerprint' → CollisionFree sampleEnv q →
      ((requestFingerprintVersion, sampleEnv.sha256Hex
          (canonicalText sampleEnv (plainPayload.intent sampleEnv sampleFields))) = fingerprint' ↔
        SameIntent sampleEnv plainPayload q)) ↔ CollisionFree sampleEnv plainPayload :=
  fingerprint_faithful_iff (Equiv.injective _)
    (buildRequestFingerprint_ok.mpr ⟨sampleFields, sampleEntries canonicalMembers_plain, rfl⟩)

/-- Two different intents, one of them with two keys of one normal form, have one fingerprint. -/
theorem colliding_same_fingerprint : Function.Injective sampleEnv.sha256Hex ∧
    ¬ ∀ p q fingerprint fingerprint', buildRequestFingerprint sampleEnv p = .ok fingerprint →
      buildRequestFingerprint sampleEnv q = .ok fingerprint' →
        (fingerprint = fingerprint' ↔ SameIntent sampleEnv p q) := by
  refine ⟨Equiv.injective _, fun h => ?_⟩
  have hsame := (h collidingPayload plainPayload _ _
    (buildRequestFingerprint_ok.mpr ⟨sampleFields, sampleEntries canonicalMembers_colliding, rfl⟩)
    (buildRequestFingerprint_ok.mpr ⟨sampleFields, sampleEntries canonicalMembers_plain, rfl⟩)).mp rfl
  have hparsed := (List.forall₂_cons.mp hsame.fields).1
  exact not_collisionFree_colliding (hparsed.distinctKeys collisionFree_plain)

end Example

end QuantAgent.AIBacktest
