import QuantAgent.Lib.PyList

namespace QuantAgent
set_option autoImplicit true

/-- `l[-n:]` for positive `n`. -/
def lastN (n : ℕ) (l : List α) : List α := l.drop (l.length - n)

/-- The value at each place is computed from the list up to that place. -/
def prefixMap (f : List α → β) (l : List α) : List β :=
  (List.range l.length).map fun i => f (l.take (i + 1))

/-- A loop over a list that carries a state and yields one value per item. -/
def loopMap (step : σ → α → σ × β) : σ → List α → List β
  | _, [] => []
  | s, a :: l => (step s a).2 :: loopMap step (step s a).1 l

/-- The state such a loop ends in. -/
def loopState (step : σ → α → σ × β) (s : σ) (l : List α) : σ := l.foldl (fun s a => (step s a).1) s

@[simp] theorem loopState_concat (step : σ → α → σ × β) (s : σ) (l : List α) (a : α) :
    loopState step s (l ++ [a]) = (step (loopState step s l) a).1 := by
  rw [loopState, List.foldl_append, List.foldl_cons, List.foldl_nil]
  rfl

@[simp] theorem length_loopMap (step : σ → α → σ × β) (s : σ) (l : List α) :
    (loopMap step s l).length = l.length := by
  induction l generalizing s with
  | nil => rfl
  | cons a l ih => rw [loopMap, List.length_cons, ih, List.length_cons]

theorem loopMap_concat (step : σ → α → σ × β) (s : σ) (l : List α) (a : α) :
    loopMap step s (l ++ [a]) = loopMap step s l ++ [(step (loopState step s l) a).2] := by
  induction l generalizing s with
  | nil => rfl
  | cons b l ih =>
    rw [List.cons_append, loopMap, ih]
    rfl

/-- A series builder whose first values only depend on the first items. -/
structure Causal (f : List α → List β) : Prop where
  length : ∀ l, (f l).length = l.length
  take : ∀ l n, f (l.take n) = (f l).take n

theorem Causal.prefixMap (f : List α → β) : Causal (prefixMap f) where
  length l := by simp [QuantAgent.prefixMap]
  take l n := by
    unfold QuantAgent.prefixMap
    rw [← List.map_take, List.take_range, List.length_take]
    apply List.map_congr_left
    intro i hi
    have hi : i + 1 ≤ min n l.length := List.mem_range.mp hi
    rw [List.take_take, min_eq_left (hi.trans (min_le_left _ _))]

theorem Causal.loopMap (step : σ → α → σ × β) (s : σ) : Causal (loopMap step s) where
  length l := length_loopMap step s l
  take l n := by
    induction l generalizing s n with
    | nil => simp [QuantAgent.loopMap]
    | cons a l ih =>
      cases n with
      | zero => rfl
      | succ n => simp [QuantAgent.loopMap, ih]

theorem Causal.zip {f : List α → List β} {g : List α → List γ} (hf : Causal f) (hg : Causal g) :
    Causal fun l => (f l).zip (g l) where
  length l := by simp [hf.length, hg.length]
  take l n := by simp only [hf.take, hg.take, List.zip, List.take_zipWith]

theorem Causal.id : Causal fun l : List α => l := ⟨fun _ => rfl, fun _ _ => rfl⟩

theorem Causal.comp {f : List α → List β} {g : List β → List γ} (hg : Causal g) (hf : Causal f) :
    Causal fun l => g (f l) where
  length l := by rw [hg.length, hf.length]
  take l n := by rw [hf.take, hg.take]

theorem Causal.map (f : α → β) : Causal (List.map f) where
  length _ := List.length_map _
  take _ _ := List.map_take

/-- A reduction of the last `window` values, once there are that many. -/
def rollingWith (fill : β) (window : ℕ) (f : List α → β) : List α → List β :=
  QuantAgent.prefixMap fun front => if front.length < window then fill else f (lastN window front)

theorem Causal.rollingWith (fill : β) (window : ℕ) (f : List α → β) :
    Causal (rollingWith fill window f) := .prefixMap _

/-- Every value `periods` places later. -/
def delayed (fill : α) (periods : ℕ) (l : List α) : List α :=
  (List.replicate periods fill ++ l).take l.length

theorem Causal.delayed (fill : α) (periods : ℕ) : Causal (delayed fill periods) where
  length l := by simp [QuantAgent.delayed]
  take l n := by
    unfold QuantAgent.delayed
    rw [List.take_take, List.take_append, List.take_append, List.take_take, List.length_take]
    congr 2
    omega

/-- `f` of the value before and the value itself; the first place has none before it. -/
def fromPrevious (fill : β) (f : α → α → β) : List α → List β :=
  QuantAgent.loopMap (fun previous a => (some a, previous.elim fill fun b => f b a)) none

theorem Causal.fromPrevious (fill : β) (f : α → α → β) : Causal (fromPrevious fill f) := .loopMap _ _

/-- `f` of the value `periods` places before and the value itself. -/
def fromEarlier (fill : β) (periods : ℕ) (f : α → α → β) : List α → List β :=
  QuantAgent.prefixMap fun front =>
    if front.length ≤ periods then fill
    else
      match front[front.length - 1 - periods]?, front.getLast? with
      | some earlier, some later => f earlier later
      | _, _ => fill

theorem Causal.fromEarlier (fill : β) (periods : ℕ) (f : α → α → β) :
    Causal (fromEarlier fill periods f) := .prefixMap _

/-- A loop that starts at the place `start` finds, and leaves `fill` before it. -/
def startingAt (fill : β) (start : List α → Option ℕ) (init : List α → σ × β)
    (step : σ → α → σ × β) (l : List α) : List β :=
  match start l with
  | none => List.replicate l.length fill
  | some k =>
    let s := init (l.take (k + 1))
    List.replicate k fill ++ s.2 :: loopMap step s.1 (l.drop (k + 1))

/-- A place that is found as soon as the list reaches it. -/
structure Stable (start : List α → Option ℕ) : Prop where
  lt : start l = some k → k < l.length
  take : ∀ l n, start (l.take n) = (start l).filter (· < n)

theorem Causal.startingAt {start : List α → Option ℕ} (h : Stable start) (fill : β)
    (init : List α → σ × β) (step : σ → α → σ × β) :
    Causal (startingAt fill start init step) where
  length l := by
    unfold QuantAgent.startingAt
    cases hs : start l with
    | none => simp
    | some k =>
      have hk := h.lt hs
      simp only [List.length_append, List.length_replicate, List.length_cons,
        (Causal.loopMap step _).length, List.length_drop]
      omega
  take l n := by
    unfold QuantAgent.startingAt
    rw [h.take]
    cases hs : start l with
    | none => simp
    | some k =>
      have hk := h.lt hs
      by_cases hn : k < n
      · simp only [Option.filter_some, hn, decide_true, if_true]
        obtain ⟨m, rfl⟩ : ∃ m, n = k + 1 + m := ⟨n - (k + 1), by omega⟩
        have hfront : k + 1 + m - k = m + 1 := by omega
        have hrest : k + 1 + m - (k + 1) = m := by omega
        have hreplicate : (List.replicate k fill).take (k + 1 + m) = List.replicate k fill :=
          List.take_of_length_le (by rw [List.length_replicate]; omega)
        rw [List.take_take, min_eq_left hn, List.take_append, hreplicate, List.length_replicate,
          hfront, List.take_succ_cons, List.drop_take, hrest, (Causal.loopMap step _).take]
      · have hle : n ≤ k := not_lt.mp hn
        simp only [Option.filter_some, hn, decide_false, Bool.false_eq_true, if_false]
        rw [List.take_append_of_le_length (by simpa using hle), List.take_replicate,
          List.length_take, min_eq_left hle, min_eq_left (hle.trans hk.le)]

theorem Stable.fixed (k : ℕ) : Stable fun l : List α => if k < l.length then some k else none where
  lt {l j} h := by
    split at h
    · rename_i hk
      cases h
      exact hk
    · cases h
  take l n := by
    rw [List.length_take]
    by_cases hk : k < l.length
    · by_cases hn : k < n <;> simp [Option.filter, hk, hn]
    · simp [hk]

/-- `np.flatnonzero` of a test over the values. -/
def flatNonzero (p : α → Bool) (l : List α) : List ℕ := (l.zipIdx.filter fun e => p e.1).map Prod.snd

theorem flatNonzero_split (p : α → Bool) (l : List α) (n : ℕ) :
    ∃ later, flatNonzero p l = flatNonzero p (l.take n) ++ later ∧
      (∀ i ∈ flatNonzero p (l.take n), i < n ∧ i < l.length) ∧ ∀ i ∈ later, n ≤ i ∧ i < l.length := by
  refine ⟨(((l.drop n).zipIdx (l.take n).length).filter fun e => p e.1).map Prod.snd, ?_, ?_, ?_⟩
  · have hl : l.zipIdx = (l.take n).zipIdx ++ (l.drop n).zipIdx (l.take n).length := by
      conv_lhs => rw [← List.take_append_drop n l]
      rw [List.zipIdx_append, Nat.zero_add]
    unfold flatNonzero
    rw [hl, List.filter_append, List.map_append]
  · intro i hi
    obtain ⟨e, he, rfl⟩ := List.mem_map.mp hi
    have hlt := (List.mem_zipIdx (List.mem_filter.mp he).1).2.1
    rw [Nat.zero_add, List.length_take] at hlt
    omega
  · intro i hi
    obtain ⟨e, he, rfl⟩ := List.mem_map.mp hi
    have hplace := List.mem_zipIdx (List.mem_filter.mp he).1
    have hlt := hplace.2.1
    have hle := hplace.1
    rw [List.length_take, List.length_drop] at hlt
    rw [List.length_take] at hle
    by_cases hn : n ≤ l.length
    · omega
    · omega

/-- The last of the first `period` places that pass, when these are consecutive. -/
def seedAt (p : α → Bool) (period : ℕ) (l : List α) : Option ℕ :=
  let seedPlaces := (flatNonzero p l).take period
  if (flatNonzero p l).length < period then none
  else
    match seedPlaces.head?, seedPlaces.getLast? with
    | some first, some last => if last - first = period - 1 then some last else none
    | _, _ => none

theorem seedAt_mem {p : α → Bool} (h : seedAt p period l = some k) :
    period ≤ (flatNonzero p l).length ∧ ((flatNonzero p l).take period).getLast? = some k := by
  unfold seedAt at h
  by_cases hlen : (flatNonzero p l).length < period
  · simp [hlen] at h
  · simp only [hlen, if_false] at h
    refine ⟨not_lt.mp hlen, ?_⟩
    cases hfirst : ((flatNonzero p l).take period).head? with
    | none => simp [hfirst] at h
    | some first =>
      cases hlast : ((flatNonzero p l).take period).getLast? with
      | none => simp [hfirst, hlast] at h
      | some last =>
        simp only [hfirst, hlast] at h
        split at h
        · exact h
        · cases h

theorem Stable.seedAt (p : α → Bool) (period : ℕ) : Stable (seedAt p period) where
  lt {l k} h := by
    have hk := List.mem_of_mem_take (List.mem_of_getLast? (seedAt_mem h).2)
    obtain ⟨later, hsplit, hfront, hlater⟩ := flatNonzero_split p l 0
    rw [hsplit] at hk
    rcases List.mem_append.mp hk with hk | hk
    · exact (hfront k hk).2
    · exact (hlater k hk).2
  take l n := by
    obtain ⟨later, hsplit, hfront, hlater⟩ := flatNonzero_split p l n
    by_cases hlen : (flatNonzero p (l.take n)).length < period
    · have hnone : QuantAgent.seedAt p period (l.take n) = none := by
        simp [QuantAgent.seedAt, hlen]
      rw [hnone]
      cases hs : QuantAgent.seedAt p period l with
      | none => rfl
      | some k =>
        obtain ⟨hcount, hlast⟩ := seedAt_mem hs
        have hk : k ∈ later := by
          rw [hsplit] at hlast hcount
          rw [List.take_append, List.take_of_length_le hlen.le, List.getLast?_append] at hlast
          have hne : later.take (period - (flatNonzero p (l.take n)).length) ≠ [] := by
            rw [← List.length_pos_iff, List.length_take]
            rw [List.length_append] at hcount
            omega
          rw [List.getLast?_eq_getLast_of_ne_nil hne, Option.some_or] at hlast
          cases hlast
          exact List.mem_of_mem_take (List.getLast_mem hne)
        have hnk : ¬ k < n := not_lt.mpr (hlater k hk).1
        simp [Option.filter, hnk]
    · have hle := not_lt.mp hlen
      have htake : (flatNonzero p l).take period = (flatNonzero p (l.take n)).take period := by
        rw [hsplit, List.take_append_of_le_length hle]
      have hlong : ¬ (flatNonzero p l).length < period := by
        rw [hsplit, List.length_append]
        omega
      have hsame : QuantAgent.seedAt p period l = QuantAgent.seedAt p period (l.take n) := by
        unfold QuantAgent.seedAt
        simp only [htake, hlen, hlong]
      rw [hsame]
      cases hs : QuantAgent.seedAt p period (l.take n) with
      | none => rfl
      | some k =>
        have hk := List.mem_of_mem_take (List.mem_of_getLast? (seedAt_mem hs).2)
        simp [Option.filter, (hfront k hk).1]

/-- Two lists that agree before a point yield series that agree before it. -/
theorem Causal.of_append {f : List α → List β} (hf : Causal f) (l m : List α) :
    (f (l ++ m)).take l.length = f l := by
  rw [← hf.take, List.take_left]

end QuantAgent
