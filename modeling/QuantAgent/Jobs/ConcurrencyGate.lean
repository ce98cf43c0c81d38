import QuantAgent.Lib.PyFloat

namespace QuantAgent
set_option autoImplicit true

/-- The bounds an `AOAIConcurrencyGate` is built with. -/
structure GateBounds where
  minCapacity : ℤ
  maxCapacity : ℤ
  healthyObservationsToGrow : ℤ
  min_pos : 1 ≤ minCapacity
  min_le_max : minCapacity ≤ maxCapacity

structure AOAIConcurrencyGate where
  bounds : GateBounds
  capacity : ℤ
  inFlight : ℤ
  healthyStreak : ℤ

namespace AOAIConcurrencyGate

def DEFAULT_INITIAL_CAPACITY : ℤ := 2
def DEFAULT_MIN_CAPACITY : ℤ := 1
def DEFAULT_MAX_CAPACITY : ℤ := 8
def DEFAULT_HEALTHY_OBSERVATIONS_TO_GROW : ℤ := 10

def clamp (value low high : ℤ) : ℤ := max low (min value high)

def new (initialCapacity minCapacity maxCapacity healthyObservationsToGrow : ℤ) :
    Except PyError AOAIConcurrencyGate :=
  if hmin : minCapacity < 1 then .error (.valueError "min_capacity must be at least 1")
  else if hmax : maxCapacity < minCapacity then
    .error (.valueError "max_capacity must be at least min_capacity")
  else .ok {
    bounds := ⟨minCapacity, maxCapacity, healthyObservationsToGrow, not_lt.mp hmin, not_lt.mp hmax⟩
    capacity := clamp initialCapacity minCapacity maxCapacity
    inFlight := 0
    healthyStreak := 0 }

theorem new_ok {g : AOAIConcurrencyGate} (h : new initialCapacity minCapacity maxCapacity n = .ok g) :
    g.bounds.minCapacity = minCapacity ∧ g.bounds.maxCapacity = maxCapacity ∧
      g.bounds.healthyObservationsToGrow = n ∧ g.inFlight = 0 ∧ g.healthyStreak = 0 ∧
      g.capacity = clamp initialCapacity g.bounds.minCapacity g.bounds.maxCapacity := by
  unfold new at h
  split at h
  · cases h
  split at h
  · cases h
  cases h
  exact ⟨rfl, rfl, rfl, rfl, rfl, rfl⟩

/-- What one pass through the wait loop of `acquire_slot` ends with. -/
inductive Entry
  | granted (gate : AOAIConcurrencyGate)
  | wait
  | busy (inFlight capacity : ℤ)

def tryAcquire (g : AOAIConcurrencyGate) (expired : Bool) : Entry :=
  if g.inFlight ≥ g.capacity then
    if expired then .busy g.inFlight g.capacity else .wait
  else .granted { g with inFlight := g.inFlight + 1 }

def release (g : AOAIConcurrencyGate) : AOAIConcurrencyGate := { g with inFlight := g.inFlight - 1 }

def shrink (g : AOAIConcurrencyGate) : AOAIConcurrencyGate :=
  let g := { g with healthyStreak := 0 }
  if g.capacity ≤ g.bounds.minCapacity then g else { g with capacity := g.capacity - 1 }

def recordHealthy (g : AOAIConcurrencyGate) : AOAIConcurrencyGate :=
  if g.capacity ≥ g.bounds.maxCapacity then g
  else
    let g := { g with healthyStreak := g.healthyStreak + 1 }
    if g.healthyStreak < g.bounds.healthyObservationsToGrow then g
    else { g with healthyStreak := 0, capacity := g.capacity + 1 }

def REMAINING_REQUESTS_HEADER := "x-ratelimit-remaining-requests"
def REMAINING_TOKENS_HEADER := "x-ratelimit-remaining-tokens"
def LIMIT_REQUESTS_HEADER := "x-ratelimit-limit-requests"
def LIMIT_TOKENS_HEADER := "x-ratelimit-limit-tokens"

/-- What a throttle does: the streak is lost, and one of the capacity unless at the floor. -/
inductive Shrunk (g : AOAIConcurrencyGate) : AOAIConcurrencyGate → Prop
  | floor (h : g.capacity ≤ g.bounds.minCapacity) : Shrunk g { g with healthyStreak := 0 }
  | lowered (h : g.bounds.minCapacity < g.capacity) :
      Shrunk g { g with healthyStreak := 0, capacity := g.capacity - 1 }

theorem shrunk (g : AOAIConcurrencyGate) : Shrunk g g.shrink := by
  by_cases hfloor : g.capacity ≤ g.bounds.minCapacity
  · simp only [shrink, if_pos hfloor]
    exact .floor hfloor
  · simp only [shrink, if_neg hfloor]
    exact .lowered (not_le.mp hfloor)

/-- What a healthy report does: nothing at the ceiling, else one more for the streak, which a
growth by one uses up. -/
inductive Recorded (g : AOAIConcurrencyGate) : AOAIConcurrencyGate → Prop
  | full (h : g.bounds.maxCapacity ≤ g.capacity) : Recorded g g
  | counted (h : g.capacity < g.bounds.maxCapacity) :
      Recorded g { g with healthyStreak := g.healthyStreak + 1 }
  | grown (h : g.capacity < g.bounds.maxCapacity)
      (hn : g.bounds.healthyObservationsToGrow ≤ g.healthyStreak + 1) :
      Recorded g { g with healthyStreak := 0, capacity := g.capacity + 1 }

theorem recorded (g : AOAIConcurrencyGate) : Recorded g g.recordHealthy := by
  by_cases hfull : g.capacity ≥ g.bounds.maxCapacity
  · rw [recordHealthy, if_pos hfull]
    exact .full hfull
  · rw [recordHealthy, if_neg hfull]
    by_cases hn : g.healthyStreak + 1 < g.bounds.healthyObservationsToGrow
    · simp only [if_pos hn]
      exact .counted (not_le.mp hfull)
    · simp only [if_neg hn]
      exact .grown (not_le.mp hfull) (not_lt.mp hn)

section Headers
variable {F : Type} [PyFloat F]

def LOW_REMAINING_RATIO : F := PyFloat.ofInt 1 / PyFloat.ofInt 10

/-- The `parse` of all header readers is `float(str(raw).strip())`. -/
def intHeader (parse : String → Except PyError F) (headers : String → Option String)
    (name : String) : Except PyError (Option ℤ) :=
  match headers name with
  | none => .ok none
  | some raw =>
    match parse raw >>= PyFloat.trunc with
    | .ok n => .ok (some n)
    | .error (.typeError _) => .ok none
    | .error (.valueError _) => .ok none
    | .error e => .error e

def anyNearExhaustion (parse : String → Except PyError F) (headers : String → Option String) :
    List (String × String) → Except PyError Bool
  | [] => .ok false
  | (remainingHeader, limitHeader) :: rest => do
    match ← intHeader parse headers remainingHeader with
    | none => anyNearExhaustion parse headers rest
    | some remaining =>
      if remaining ≤ 0 then return true
      match ← intHeader parse headers limitHeader with
      | none => anyNearExhaustion parse headers rest
      | some limit =>
        if limit ≠ 0 ∧ (PyFloat.ofInt remaining / PyFloat.ofInt limit : F) ≤ LOW_REMAINING_RATIO then
          return true
        anyNearExhaustion parse headers rest

def isNearExhaustion (parse : String → Except PyError F) (headers : String → Option String) :
    Except PyError Bool :=
  anyNearExhaustion parse headers
    [(REMAINING_REQUESTS_HEADER, LIMIT_REQUESTS_HEADER),
      (REMAINING_TOKENS_HEADER, LIMIT_TOKENS_HEADER)]

def observeRateLimitHeaders (g : AOAIConcurrencyGate) (parse : String → Except PyError F)
    (headers : String → Option String) : Except PyError AOAIConcurrencyGate := do
  if ← isNearExhaustion parse headers then return g.shrink
  return g.recordHealthy

end Headers

def observeRateLimitedResponse (g : AOAIConcurrencyGate) : AOAIConcurrencyGate := g.shrink

/-- A gate with the calls inside `acquire_slot` that wait and those whose block runs. -/
structure System (κ : Type u) where
  gate : AOAIConcurrencyGate
  waiting : List κ
  openSlots : List κ

/-- Each action is one critical section of the lock. A pass through the wait loop may come at any
time, since a wait ends by a notification or by its own timeout. -/
inductive Action (κ : Type u)
  | attempt (call : κ) (expired : Bool)
  | leave (call : κ)
  | rateLimitHeaders (headers : String → Option String)
  | rateLimitedResponse

def System.start (gate : AOAIConcurrencyGate) : System κ := ⟨gate, [], []⟩

/-- The slots granted are those still open, and the capacity stays within its bounds. -/
structure System.Safe (b : GateBounds) (s : System κ) : Prop where
  bounds_eq : s.gate.bounds = b
  inFlight_eq : s.gate.inFlight = s.openSlots.length
  min_le : b.minCapacity ≤ s.gate.capacity
  le_max : s.gate.capacity ≤ b.maxCapacity
  inFlight_le : s.gate.inFlight ≤ b.maxCapacity

theorem System.Safe.start {g : AOAIConcurrencyGate}
    (h : g.capacity = clamp initial g.bounds.minCapacity g.bounds.maxCapacity)
    (hin : g.inFlight = 0) : (System.start (κ := κ) g).Safe g.bounds := by
  have hmin := g.bounds.min_pos
  have hmax := g.bounds.min_le_max
  refine ⟨rfl, hin, ?_, ?_, ?_⟩
  · exact (le_max_left _ _).trans h.ge
  · exact h.trans_le (max_le hmax (min_le_right _ _))
  · simp only [System.start, hin]
    omega

section Runs
variable {κ : Type u} [DecidableEq κ] {F : Type} [PyFloat F] (parse : String → Except PyError F)

def System.step (s : System κ) : Action κ → System κ
  | .attempt call expired =>
    if call ∈ s.openSlots then s
    else
      match s.gate.tryAcquire expired with
      | .granted gate => ⟨gate, s.waiting.erase call, call :: s.openSlots⟩
      | .wait => { s with waiting := if call ∈ s.waiting then s.waiting else call :: s.waiting }
      | .busy _ _ => { s with waiting := s.waiting.erase call }
  | .leave call =>
    if call ∈ s.openSlots then
      { s with gate := s.gate.release, openSlots := s.openSlots.erase call }
    else s
  | .rateLimitHeaders headers =>
    -- an observation that raises leaves the gate as it was
    match s.gate.observeRateLimitHeaders parse headers with
    | .ok gate => { s with gate }
    | .error _ => s
  | .rateLimitedResponse => { s with gate := s.gate.observeRateLimitedResponse }

def System.exec (s : System κ) (acts : List (Action κ)) : System κ :=
  acts.foldl (System.step parse) s

/-- A report that counts towards growth. -/
def Action.healthy : Action κ → Bool
  | .rateLimitHeaders headers => decide (isNearExhaustion parse headers = .ok false)
  | _ => false

/-- A report that shrinks the gate or would, were it not at its floor. -/
def Action.throttled : Action κ → Bool
  | .rateLimitHeaders headers => decide (isNearExhaustion parse headers = .ok true)
  | .rateLimitedResponse => true
  | _ => false

/-- Everything one action can do. -/
inductive Stepped (s : System κ) (a : Action κ) : System κ → Prop
  | idle (waiting : List κ) (ht : a.throttled parse = false) : Stepped s a { s with waiting }
  | granted {waiting} (call : κ) (hnew : call ∉ s.openSlots) (hroom : s.gate.inFlight < s.gate.capacity)
      (ht : a.throttled parse = false) :
      Stepped s a ⟨{ s.gate with inFlight := s.gate.inFlight + 1 }, waiting, call :: s.openSlots⟩
  | left (call : κ) (hopen : call ∈ s.openSlots) (ht : a.throttled parse = false) :
      Stepped s a { s with gate := s.gate.release, openSlots := s.openSlots.erase call }
  | recorded {gate} (hr : Recorded s.gate gate) (hh : a.healthy parse = true)
      (ht : a.throttled parse = false) : Stepped s a { s with gate }
  | shrunk {gate} (hs : Shrunk s.gate gate) : Stepped s a { s with gate }

theorem System.stepped (s : System κ) (a : Action κ) : Stepped parse s a (s.step parse a) := by
  cases a with
  | attempt call expired =>
    rw [System.step]
    split
    · exact .idle s.waiting rfl
    · rename_i hnew
      by_cases hroom : s.gate.inFlight ≥ s.gate.capacity
      · cases expired with
        | true =>
          rw [tryAcquire, if_pos hroom]
          exact .idle _ rfl
        | false =>
          rw [tryAcquire, if_pos hroom]
          exact .idle _ rfl
      · rw [tryAcquire, if_neg hroom]
        exact .granted call hnew (not_le.mp hroom) rfl
  | leave call =>
    rw [System.step]
    split
    · rename_i hopen
      exact .left call hopen rfl
    · exact .idle s.waiting rfl
  | rateLimitHeaders headers =>
    rw [System.step, observeRateLimitHeaders]
    cases hnear : isNearExhaustion parse headers with
    | error e => exact .idle s.waiting (by simp [Action.throttled, hnear])
    | ok near =>
      cases near with
      | true => exact .shrunk s.gate.shrunk
      | false =>
        exact .recorded s.gate.recorded (by simp [Action.healthy, hnear])
          (by simp [Action.throttled, hnear])
  | rateLimitedResponse => exact .shrunk s.gate.shrunk

theorem System.Safe.step {s : System κ} (h : s.Safe b) (hstep : Stepped parse s a s') :
    s'.Safe b := by
  obtain ⟨hbounds, hopenSlots, hmin, hmax, hle⟩ := h
  cases hstep with
  | idle => exact ⟨hbounds, hopenSlots, hmin, hmax, hle⟩
  | granted call hnew hroom =>
    have hlen : s.gate.inFlight + 1 = ((call :: s.openSlots).length : ℤ) := by
      rw [List.length_cons, hopenSlots, Nat.cast_succ]
    exact ⟨hbounds, hlen, hmin, hmax, by grind⟩
  | left call hopen =>
    have hpos : 0 < s.openSlots.length := List.length_pos_of_mem hopen
    have hlen : s.gate.inFlight - 1 = ((s.openSlots.erase call).length : ℤ) := by
      rw [List.length_erase_of_mem hopen, hopenSlots]
      omega
    exact ⟨hbounds, hlen, hmin, hmax, by simp only [release]; omega⟩
  | recorded hr =>
    cases hr with
    | full => exact ⟨hbounds, hopenSlots, hmin, hmax, hle⟩
    | counted => exact ⟨hbounds, hopenSlots, hmin, hmax, hle⟩
    | grown hlt =>
      rw [hbounds] at hlt
      exact ⟨hbounds, hopenSlots, by simp only; omega, hlt, hle⟩
  | shrunk hs =>
    cases hs with
    | floor => exact ⟨hbounds, hopenSlots, hmin, hmax, hle⟩
    | lowered hlt =>
      rw [hbounds] at hlt
      exact ⟨hbounds, hopenSlots, by simp only; omega, by simp only; omega, hle⟩

theorem System.exec_snoc (s : System κ) (acts : List (Action κ)) (a : Action κ) :
    s.exec parse (acts ++ [a]) = (s.exec parse acts).step parse a := List.foldl_concat ..

theorem System.Safe.exec {s : System κ} (h : s.Safe b) (acts : List (Action κ)) :
    (s.exec parse acts).Safe b := by
  induction acts using List.reverseRecOn with
  | nil => exact h
  | append_singleton acts a ih =>
    rw [System.exec_snoc]
    exact ih.step parse (System.stepped parse _ a)

/-- The streak counts healthy reports of a last part of the run in which no throttle came and
the capacity stayed what it is. -/
def System.Streak (s₀ : System κ) (acts : List (Action κ)) : Prop :=
  ∃ before since, acts = before ++ since ∧ (∀ a ∈ since, a.throttled parse = false) ∧
    (s₀.exec parse acts).gate.healthyStreak ≤ since.countP (Action.healthy parse) ∧
    ∀ part, part <+: since →
      (s₀.exec parse (before ++ part)).gate.capacity = (s₀.exec parse acts).gate.capacity

theorem System.Streak.reset {s₀ : System κ} (h : (s₀.exec parse acts).gate.healthyStreak ≤ 0) :
    System.Streak parse s₀ acts := by
  refine ⟨acts, [], (List.append_nil acts).symm, by simp, by simpa using h, ?_⟩
  intro part hpart
  rw [List.prefix_nil.mp hpart, List.append_nil]

theorem System.Streak.extend {s₀ : System κ} (h : System.Streak parse s₀ acts)
    (ht : a.throttled parse = false)
    (hcap : ((s₀.exec parse acts).step parse a).gate.capacity = (s₀.exec parse acts).gate.capacity)
    (hcount : ((s₀.exec parse acts).step parse a).gate.healthyStreak ≤
        (s₀.exec parse acts).gate.healthyStreak ∨
      ((s₀.exec parse acts).step parse a).gate.healthyStreak ≤
        (s₀.exec parse acts).gate.healthyStreak + 1 ∧ a.healthy parse = true) :
    System.Streak parse s₀ (acts ++ [a]) := by
  obtain ⟨before, since, rfl, hquiet, hstreak, hsame⟩ := h
  refine ⟨before, since ++ [a], List.append_assoc .., ?_, ?_, ?_⟩
  · intro o ho
    rcases List.mem_append.mp ho with ho | ho
    · exact hquiet o ho
    · exact List.mem_singleton.mp ho ▸ ht
  · rw [System.exec_snoc, List.countP_append, List.countP_singleton]
    rcases hcount with hle | ⟨hle, hh⟩
    · omega
    · rw [if_pos hh]
      omega
  · intro part hpart
    rw [System.exec_snoc, hcap]
    rcases List.prefix_concat_iff.mp hpart with rfl | hpart
    · rw [← List.append_assoc, System.exec_snoc, hcap]
    · exact hsame part hpart

theorem System.streak (s₀ : System κ) (h : s₀.gate.healthyStreak = 0) (acts : List (Action κ)) :
    System.Streak parse s₀ acts := by
  induction acts using List.reverseRecOn with
  | nil => exact .reset parse h.le
  | append_singleton acts a ih =>
    have hstep := System.stepped parse (s₀.exec parse acts) a
    generalize hs' : (s₀.exec parse acts).step parse a = s' at hstep
    cases hstep with
    | idle _ ht => exact ih.extend parse ht (hs' ▸ rfl) (.inl (hs' ▸ le_rfl))
    | granted call hnew hroom ht => exact ih.extend parse ht (hs' ▸ rfl) (.inl (hs' ▸ le_rfl))
    | left call hopen ht => exact ih.extend parse ht (hs' ▸ rfl) (.inl (hs' ▸ le_rfl))
    | recorded hr hh ht =>
      cases hr with
      | full => exact ih.extend parse ht (hs' ▸ rfl) (.inl (hs' ▸ le_rfl))
      | counted => exact ih.extend parse ht (hs' ▸ rfl) (.inr ⟨hs' ▸ le_rfl, hh⟩)
      | grown => exact .reset parse (by rw [System.exec_snoc, hs'])
    | shrunk hs =>
      cases hs with
      | floor => exact .reset parse (by rw [System.exec_snoc, hs'])
      | lowered => exact .reset parse (by rw [System.exec_snoc, hs'])

theorem System.grew {s s' : System κ} (hstep : Stepped parse s a s')
    (h : s.gate.capacity < s'.gate.capacity) : s'.gate.capacity = s.gate.capacity + 1 ∧
      s.gate.bounds.healthyObservationsToGrow ≤ s.gate.healthyStreak + 1 ∧
      a.healthy parse = true ∧ a.throttled parse = false := by
  cases hstep with
  | idle => exact absurd h (lt_irrefl _)
  | granted => exact absurd h (lt_irrefl _)
  | left => exact absurd h (lt_irrefl _)
  | recorded hr hh ht =>
    cases hr with
    | full => exact absurd h (lt_irrefl _)
    | counted => exact absurd h (lt_irrefl _)
    | grown hlt hn => exact ⟨rfl, hn, hh, ht⟩
  | shrunk hs =>
    cases hs with
    | floor => exact absurd h (lt_irrefl _)
    | lowered => exact absurd h (by simp only; omega)

theorem System.slot_granted {s s' : System κ} (hstep : Stepped parse s a s')
    (hnew : call ∉ s.openSlots) (hopen : call ∈ s'.openSlots) : s.gate.inFlight < s.gate.capacity := by
  cases hstep with
  | idle => exact absurd hopen hnew
  | granted call' _ hroom => exact hroom
  | left => exact absurd (List.mem_of_mem_erase hopen) hnew
  | recorded => exact absurd hopen hnew
  | shrunk => exact absurd hopen hnew

/-- The gate over any run: the slots in flight are the open ones, no slot is granted at capacity,
the capacity keeps its bounds and grows by one, after enough healthy reports since it last
changed and no throttle among them. -/
theorem gate_safe {g : AOAIConcurrencyGate}
    (hnew : new initialCapacity minCapacity maxCapacity n = .ok g) (acts : List (Action κ)) :
    let s := (System.start g).exec parse acts
    (s.gate.inFlight = s.openSlots.length ∧ minCapacity ≤ s.gate.capacity ∧
      s.gate.capacity ≤ maxCapacity ∧ s.gate.inFlight ≤ maxCapacity) ∧
    ∀ a, (∀ call ∉ s.openSlots, call ∈ (s.step parse a).openSlots →
        s.gate.inFlight < s.gate.capacity) ∧
      (s.gate.capacity < (s.step parse a).gate.capacity →
        (s.step parse a).gate.capacity = s.gate.capacity + 1 ∧
        ∃ before since, acts = before ++ since ∧
          (∀ o ∈ since ++ [a], o.throttled parse = false) ∧
          n ≤ (since ++ [a]).countP (Action.healthy parse) ∧
          ∀ part, part <+: since →
            ((System.start g).exec parse (before ++ part)).gate.capacity = s.gate.capacity) := by
  obtain ⟨hmin, hmax, hn, hin, hstreak, hcap⟩ := new_ok hnew
  have hsafe := (System.Safe.start (κ := κ) hcap hin).exec parse acts
  refine ⟨⟨hsafe.inFlight_eq, hmin ▸ hsafe.min_le, hmax ▸ hsafe.le_max, hmax ▸ hsafe.inFlight_le⟩, ?_⟩
  intro a
  have hstep := System.stepped parse ((System.start g).exec parse acts) a
  refine ⟨fun call hnew hopen => System.slot_granted parse hstep hnew hopen, ?_⟩
  intro hgrew
  obtain ⟨hone, hobs, hh, ht⟩ := System.grew parse hstep hgrew
  obtain ⟨before, since, hacts, hquiet, hcount, hsame⟩ :=
    System.streak parse (System.start g : System κ) hstreak acts
  refine ⟨hone, before, since, hacts, ?_, ?_, hsame⟩
  · intro o ho
    rcases List.mem_append.mp ho with ho | ho
    · exact hquiet o ho
    · exact List.mem_singleton.mp ho ▸ ht
  · rw [hsafe.bounds_eq, hn] at hobs
    rw [List.countP_append, List.countP_singleton, if_pos hh]
    omega

end Runs

def defaultGate : AOAIConcurrencyGate where
  bounds := ⟨DEFAULT_MIN_CAPACITY, DEFAULT_MAX_CAPACITY, DEFAULT_HEALTHY_OBSERVATIONS_TO_GROW,
    by decide, by decide⟩
  capacity := DEFAULT_INITIAL_CAPACITY
  inFlight := 0
  healthyStreak := 0

def spentHeaders (name : String) : Option String :=
  if name = REMAINING_REQUESTS_HEADER then some "0" else none

/-- Two calls enter the default gate, then the provider reports a spent window. -/
def crowd : List (Action String) :=
  [.attempt "first" false, .attempt "second" false, .rateLimitHeaders spentHeaders,
    .attempt "third" false]

theorem defaultGate_safe :
    ((System.start defaultGate).exec (fun _ => .ok (0 : ℚ)) crowd).gate.inFlight =
      ((System.start defaultGate).exec (fun _ => .ok (0 : ℚ)) crowd).openSlots.length :=
  have hnew : new 2 1 8 10 = .ok defaultGate := rfl
  (gate_safe (fun _ => .ok (0 : ℚ)) hnew crowd).1.1
end AOAIConcurrencyGate
end QuantAgent
