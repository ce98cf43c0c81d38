import QuantAgent.Lib.BoundedLog
import QuantAgent.Lib.Dict

namespace QuantAgent
set_option autoImplicit true

/-- `JobEventBuffer`; each of its methods holds the lock from start to end. -/
structure JobEventBuffer (ε : Type u) where
  maxEvents : ℤ
  events : Dict String (List ε)
  dropped : Dict String ℤ
  closed : List String

namespace JobEventBuffer
variable {ε : Type u} {ρ : Type v}

def DEFAULT_MAX_EVENTS_PER_JOB : ℤ := 20000

def new (maxEvents : ℤ) : JobEventBuffer ε := ⟨maxEvents, .empty, .empty, []⟩

def eventsOf (b : JobEventBuffer ε) (job : String) : List ε := (b.events.get? job).getD []

def droppedOf (b : JobEventBuffer ε) (job : String) : ℤ := (b.dropped.get? job).getD 0

def publish (b : JobEventBuffer ε) (job : String) (event : ε) : JobEventBuffer ε :=
  let events := b.eventsOf job ++ [event]
  let overflow : ℤ := events.length - b.maxEvents
  if overflow > 0 then
    { b with
      events := b.events.insert job (events.drop overflow.toNat)
      dropped := b.dropped.insert job (b.droppedOf job + overflow) }
  else { b with events := b.events.insert job events }

def close (b : JobEventBuffer ε) (job : String) : JobEventBuffer ε :=
  { b with closed := if job ∈ b.closed then b.closed else job :: b.closed }

/-- The events after the cursor, the new cursor, and whether the job is done. -/
def readSince (b : JobEventBuffer ε) (job : String) (cursor : ℤ) : List ε × ℤ × Bool :=
  let events := b.eventsOf job
  let dropped := b.droppedOf job
  let total := dropped + events.length
  let start := max (cursor - dropped) 0
  (events.drop start.toNat, total, decide (job ∈ b.closed))

theorem publish_overflow {b : JobEventBuffer ε} (h : b.maxEvents < (b.eventsOf job).length + 1)
    (event : ε) : b.publish job event =
      { b with
        events := b.events.insert job ((b.eventsOf job ++ [event]).drop
          ((b.eventsOf job).length + 1 - b.maxEvents).toNat)
        dropped := b.dropped.insert job
          (b.droppedOf job + ((b.eventsOf job).length + 1 - b.maxEvents)) } := by
  have hover : ((b.eventsOf job ++ [event]).length : ℤ) - b.maxEvents > 0 := by
    rw [List.length_append, List.length_singleton]
    omega
  rw [publish, if_pos hover, List.length_append, List.length_singleton]
  rfl

theorem publish_fits {b : JobEventBuffer ε} (h : ¬b.maxEvents < (b.eventsOf job).length + 1)
    (event : ε) : b.publish job event =
      { b with events := b.events.insert job (b.eventsOf job ++ [event]) } := by
  have hfits : ¬((b.eventsOf job ++ [event]).length : ℤ) - b.maxEvents > 0 := by
    rw [List.length_append, List.length_singleton]
    omega
  rw [publish, if_neg hfits]

theorem publish_eventsOf (b : JobEventBuffer ε) (job j : String) (event : ε) :
    (b.publish job event).eventsOf j =
      if j = job then
        (b.eventsOf job ++ [event]).drop ((b.eventsOf job).length + 1 - b.maxEvents).toNat
      else b.eventsOf j := by
  by_cases h : b.maxEvents < (b.eventsOf job).length + 1
  · rw [publish_overflow h]
    change ((b.events.insert job _).get? j).getD [] = _
    rw [Dict.get?_insert]
    split <;> rfl
  · have hzero : ((b.eventsOf job).length + 1 - b.maxEvents).toNat = 0 := by omega
    rw [publish_fits h, hzero]
    change ((b.events.insert job _).get? j).getD [] = _
    rw [Dict.get?_insert]
    split <;> rfl

theorem publish_droppedOf (b : JobEventBuffer ε) (job j : String) (event : ε) :
    (b.publish job event).droppedOf j =
      if j = job then b.droppedOf job + max ((b.eventsOf job).length + 1 - b.maxEvents) 0
      else b.droppedOf j := by
  by_cases h : b.maxEvents < (b.eventsOf job).length + 1
  · have hmax : max ((b.eventsOf job).length + 1 - b.maxEvents) 0 =
        (b.eventsOf job).length + 1 - b.maxEvents := by omega
    rw [publish_overflow h, hmax]
    change ((b.dropped.insert job _).get? j).getD 0 = _
    rw [Dict.get?_insert]
    split <;> rfl
  · have hmax : max ((b.eventsOf job).length + 1 - b.maxEvents) 0 = 0 := by omega
    rw [publish_fits h, hmax, add_zero]
    split
    · rename_i hj
      rw [hj]
      rfl
    · rfl

@[simp] theorem publish_maxEvents (b : JobEventBuffer ε) (job : String) (event : ε) :
    (b.publish job event).maxEvents = b.maxEvents := by
  by_cases h : b.maxEvents < (b.eventsOf job).length + 1
  · rw [publish_overflow h]
  · rw [publish_fits h]

theorem publish_closed (b : JobEventBuffer ε) (job : String) (event : ε) :
    (b.publish job event).closed = b.closed := by
  by_cases h : b.maxEvents < (b.eventsOf job).length + 1
  · rw [publish_overflow h]
  · rw [publish_fits h]

theorem mem_close (b : JobEventBuffer ε) (job : String) : job ∈ (b.close job).closed := by
  unfold close
  split
  · assumption
  · exact List.mem_cons_self ..

/-- One step of a run; a read passes the cursor its reader got last. -/
inductive Action (ε : Type u) (ρ : Type v)
  | publish (job : String) (event : ε)
  | close (job : String)
  | read (reader : ρ)

/-- The buffer with the last cursor of every reader and what it has received. -/
structure Run (ε : Type u) (ρ : Type v) where
  buffer : JobEventBuffer ε
  cursor : ρ → ℤ
  received : ρ → List ε

def Run.start (maxEvents : ℤ) : Run ε ρ := ⟨new maxEvents, fun _ => 0, fun _ => []⟩

/-- The events published for a job, in order. -/
def published (job : String) : List (Action ε ρ) → List ε
  | [] => []
  | .publish j event :: acts => if j = job then event :: published job acts else published job acts
  | _ :: acts => published job acts

theorem published_snoc (acts : List (Action ε ρ)) (a : Action ε ρ) :
    published job (acts ++ [a]) = published job acts ++ published job [a] := by
  induction acts with
  | nil => rfl
  | cons b acts ih =>
    cases b with
    | publish j event =>
      by_cases hj : j = job
      · simp [published, hj, ih]
      · simp [published, hj, ih]
    | close j => exact ih
    | read q => exact ih

/-- What a run has done to one job and to one of its readers. A cursor and the drop count are
those of the log only when the bound is not negative; below zero nothing is ever kept. -/
structure Exact (cap : ℤ) (s : Run ε ρ) (r : ρ) (job : String) (log : List ε)
    (reads : List ℕ) : Prop where
  maxEvents : s.buffer.maxEvents = cap
  kept : s.buffer.eventsOf job = log.drop (log.length - cap.toNat)
  dropped : 0 ≤ cap → s.buffer.droppedOf job = (log.length - cap.toNat : ℕ)
  cursor : ∃ last : ℕ, (∀ n ∈ reads, n ≤ last) ∧ (last = 0 ∨ last ∈ reads) ∧
    last ≤ log.length ∧ (0 ≤ cap → s.cursor r = last)
  received : s.received r = collected cap.toNat reads log

theorem Exact.start (cap : ℤ) (r : ρ) (job : String) :
    Exact (ε := ε) cap (Run.start cap) r job [] [] where
  maxEvents := rfl
  kept := by simp [Run.start, new, eventsOf]
  dropped _ := by simp [Run.start, new, droppedOf]
  cursor := ⟨0, by simp, .inl rfl, le_rfl, fun _ => rfl⟩
  received := rfl

section Readers
variable [DecidableEq ρ]

def Run.step (job : ρ → String) (s : Run ε ρ) : Action ε ρ → Run ε ρ
  | .publish j event => { s with buffer := s.buffer.publish j event }
  | .close j => { s with buffer := s.buffer.close j }
  | .read r =>
    let out := s.buffer.readSince (job r) (s.cursor r)
    { s with
      cursor := Function.update s.cursor r out.2.1
      received := Function.update s.received r (s.received r ++ out.1) }

def Run.exec (job : ρ → String) (s : Run ε ρ) (acts : List (Action ε ρ)) : Run ε ρ :=
  acts.foldl (Run.step job) s

/-- How many events of its job were published before each read of a reader. -/
def readLengths (job : ρ → String) (r : ρ) (n : ℕ) : List (Action ε ρ) → List ℕ
  | [] => []
  | .publish j _ :: acts => readLengths job r (if j = job r then n + 1 else n) acts
  | .close _ :: acts => readLengths job r n acts
  | .read q :: acts => if q = r then n :: readLengths job r n acts else readLengths job r n acts

theorem Run.exec_snoc (job : ρ → String) (s : Run ε ρ) (acts : List (Action ε ρ))
    (a : Action ε ρ) : s.exec job (acts ++ [a]) = (s.exec job acts).step job a :=
  List.foldl_concat ..

theorem readLengths_snoc (job : ρ → String) (r : ρ) (n : ℕ) (acts : List (Action ε ρ))
    (a : Action ε ρ) : readLengths job r n (acts ++ [a]) =
      readLengths job r n acts ++ readLengths job r (n + (published (job r) acts).length) [a] := by
  induction acts generalizing n with
  | nil => rfl
  | cons b acts ih =>
    cases b with
    | publish j event =>
      by_cases hj : j = job r
      · simp only [List.cons_append, readLengths, published, hj, if_true, ih, List.length_cons]
        rw [Nat.add_assoc, Nat.add_comm 1]
      · simp only [List.cons_append, readLengths, published, hj, if_false, ih]
    | close j => exact ih n
    | read q =>
      by_cases hq : q = r
      · simp only [List.cons_append, readLengths, published, hq, if_true, ih]
      · simp only [List.cons_append, readLengths, published, hq, if_false, ih]

theorem Exact.publish {job : ρ → String} (h : Exact cap s r (job r) log reads) (event : ε) :
    Exact cap (s.step job (.publish (job r) event)) r (job r) (log ++ [event]) reads := by
  obtain ⟨last, hlast, hmem, hlen, hcursor⟩ := h.cursor
  have hkept : (s.buffer.eventsOf (job r)).length = log.length - (log.length - cap.toNat) := by
    rw [h.kept, List.length_drop]
  constructor
  · exact (publish_maxEvents ..).trans h.maxEvents
  · have hdrop : log.length - cap.toNat ≤ log.length := by omega
    have hpoint : log.length - cap.toNat +
        (((s.buffer.eventsOf (job r)).length : ℤ) + 1 - cap).toNat =
          (log ++ [event]).length - cap.toNat ∨ cap < 0 := by
      rw [List.length_append, List.length_singleton]
      omega
    rw [Run.step, publish_eventsOf, if_pos rfl, h.maxEvents, h.kept,
      ← List.drop_append_of_le_length hdrop, List.drop_drop, ← h.kept]
    rcases hpoint with heq | hneg
    · rw [heq]
    · rw [List.drop_of_length_le, List.drop_of_length_le]
      · rw [List.length_append, List.length_singleton]
        omega
      · rw [List.length_append, List.length_singleton]
        omega
  · intro hcap
    rw [Run.step, publish_droppedOf, if_pos rfl, h.maxEvents, h.dropped hcap, hkept, List.length_append,
      List.length_singleton]
    omega
  · exact ⟨last, hlast, hmem, hlen.trans (by simp), hcursor⟩
  · have hunread : ∀ n ∈ reads, n ≤ log.length := fun n hn => (hlast n hn).trans hlen
    exact h.received.trans (collected_publish hunread event).symm

theorem Exact.publish_other {job : ρ → String} (h : Exact cap s r (job r) log reads)
    (hj : j ≠ job r) (event : ε) :
    Exact cap (s.step job (.publish j event)) r (job r) log reads where
  maxEvents := (publish_maxEvents ..).trans h.maxEvents
  kept := by rw [Run.step, publish_eventsOf, if_neg (Ne.symm hj), h.kept]
  dropped hcap := by rw [Run.step, publish_droppedOf, if_neg (Ne.symm hj), h.dropped hcap]
  cursor := h.cursor
  received := h.received

theorem Exact.read {job : ρ → String} (h : Exact cap s r (job r) log reads) :
    Exact cap (s.step job (.read r)) r (job r) log (reads ++ [log.length]) := by
  obtain ⟨last, hlast, hmem, hlen, hcursor⟩ := h.cursor
  have hkept : (s.buffer.eventsOf (job r)).length = log.length - (log.length - cap.toNat) := by
    rw [h.kept, List.length_drop]
  constructor
  · exact h.maxEvents
  · exact h.kept
  · exact h.dropped
  · refine ⟨log.length, ?_, .inr (by simp), le_rfl, ?_⟩
    · intro n hn
      rcases List.mem_append.mp hn with hn | hn
      · exact (hlast n hn).trans hlen
      · exact (List.mem_singleton.mp hn).le
    · intro hcap
      simp only [Run.step, Function.update_self, readSince, h.dropped hcap, hkept]
      omega
  · have hread : s.received r ++ (s.buffer.eventsOf (job r)).drop
        (max (s.cursor r - s.buffer.droppedOf (job r)) 0).toNat =
          collected cap.toNat (reads ++ [log.length]) log := by
      rw [collected_read hlast hmem hlen, h.received, h.kept, List.drop_drop]
      congr 1
      rcases lt_or_ge cap 0 with hneg | hcap
      · rw [List.drop_of_length_le, List.drop_of_length_le]
        · omega
        · omega
      · rw [hcursor hcap, h.dropped hcap]
        congr 1
        omega
    simpa only [Run.step, Function.update_self, readSince] using hread

theorem Exact.read_other {job : ρ → String} (h : Exact cap s r (job r) log reads) (hq : q ≠ r) :
    Exact cap (s.step job (.read q)) r (job r) log reads where
  maxEvents := h.maxEvents
  kept := h.kept
  dropped := h.dropped
  cursor := by
    simp only [Run.step, Function.update_of_ne (Ne.symm hq)]
    exact h.cursor
  received := by
    simp only [Run.step, Function.update_of_ne (Ne.symm hq)]
    exact h.received

theorem Run.exact (maxEvents : ℤ) (job : ρ → String) (r : ρ) (acts : List (Action ε ρ)) :
    Exact maxEvents ((Run.start maxEvents).exec job acts) r (job r) (published (job r) acts)
      (readLengths job r 0 acts) := by
  induction acts using List.reverseRecOn with
  | nil => exact Exact.start maxEvents r (job r)
  | append_singleton acts a ih =>
    rw [Run.exec_snoc, published_snoc, readLengths_snoc, Nat.zero_add]
    cases a with
    | publish j event =>
      by_cases hj : j = job r
      · subst hj
        simpa [published, readLengths] using ih.publish event
      · simpa [published, readLengths, hj] using ih.publish_other hj event
    | close j =>
      simp only [published, readLengths, List.append_nil]
      exact ⟨ih.maxEvents, ih.kept, ih.dropped, ih.cursor, ih.received⟩
    | read q =>
      by_cases hq : q = r
      · subst hq
        simpa [published, readLengths] using ih.read
      · simpa [published, readLengths, hq] using ih.read_other hq

/-- The buffer keeps the newest events of a job, and a reader receives the published events in
order, each once, except those no longer kept when it first read after their publication. -/
theorem reads_exact (maxEvents : ℤ) (job : ρ → String) (acts : List (Action ε ρ)) (r : ρ) :
    let s := (Run.start maxEvents).exec job acts
    let log := published (job r) acts
    s.buffer.eventsOf (job r) = log.drop (log.length - maxEvents.toNat) ∧
      s.received r = collected maxEvents.toNat (readLengths job r 0 acts) log :=
  have h := Run.exact maxEvents job r acts
  ⟨h.kept, h.received⟩

end Readers
end JobEventBuffer
end QuantAgent
