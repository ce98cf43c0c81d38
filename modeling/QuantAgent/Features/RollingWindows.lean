import QuantAgent.Features.Metrics
import QuantAgent.Lib.Binary64
import QuantAgent.Lib.MonotoneDeque

namespace QuantAgent.Features
set_option autoImplicit true

section Naive
variable {F : Type} [NumPy F]

/-- The values that are there among the `window` bars before the bar `i`. -/
def windowBefore (window i : ℕ) (values : List F) : List F :=
  ((values.take i).drop (i - window)).filter PyFloat.isFinite

/-- An aggregate of the values of a window, none for an empty one. -/
def windowValue : Aggregate → List F → Option F
  | .last, values => values.getLast?
  | _, [] => none
  | .avg, values => some (pySum values / lit values.length)
  | .sum, values => some (pySum values)
  | .max, value :: values => some (values.foldl pyMax value)
  | .min, value :: values => some (values.foldl pyMin value)

/-- The rolling metric of one bar from its own window alone: `last` needs no full window. -/
def naiveRolling (window : ℕ) (aggregate : Aggregate) (values : List F) (i : ℕ) : F :=
  if aggregate ≠ .last ∧ i < window then NumPy.nan
  else (windowValue aggregate (windowBefore window i values)).getD NumPy.nan

def naiveRollingValues (window : ℕ) (aggregate : Aggregate) (values : List F) : List F :=
  (List.range values.length).map (naiveRolling window aggregate values)

/-- The numbers of a float type in a linear order. -/
structure FiniteOrder (F : Type) [NumPy F] : Prop where
  trans : ∀ a b c : F, a ≤ b → b ≤ c → a ≤ c
  total : ∀ a b : F, PyFloat.isFinite a = true → PyFloat.isFinite b = true → a ≤ b ∨ b ≤ a
  lt_iff : ∀ a b : F, PyFloat.isFinite a = true → PyFloat.isFinite b = true → (a < b ↔ ¬b ≤ a)
  antisymm : ∀ a b : F, a ≤ b → b ≤ a → a = b

/-- The places and values of the numbers of a series, from place `k` on. -/
def finiteEntries (k : ℕ) : List F → List (ℕ × F)
  | [] => []
  | v :: values =>
    if PyFloat.isFinite v then (k, v) :: finiteEntries (k + 1) values
    else finiteEntries (k + 1) values

theorem finiteEntries_concat (k : ℕ) (values : List F) (v : F) :
    finiteEntries k (values ++ [v]) = finiteEntries k values ++
      if PyFloat.isFinite v then [(k + values.length, v)] else [] := by
  induction values generalizing k with
  | nil => simp [finiteEntries]
  | cons u values ih =>
    rw [List.cons_append, finiteEntries, finiteEntries, ih, List.length_cons,
      show k + 1 + values.length = k + (values.length + 1) by omega]
    by_cases hu : PyFloat.isFinite u = true
    · rw [if_pos hu, if_pos hu, List.cons_append]
    · rw [if_neg hu, if_neg hu]

theorem finiteEntries_place (k : ℕ) (values : List F) : ∀ c ∈ finiteEntries k values, k ≤ c.1 := by
  induction values generalizing k with
  | nil => nofun
  | cons v values ih =>
    intro c hc
    have hlater : c ∈ finiteEntries (k + 1) values → k ≤ c.1 := fun hc => by
      have hplace := ih (k + 1) c hc
      omega
    rw [finiteEntries] at hc
    split at hc
    · rcases List.mem_cons.mp hc with rfl | hc
      · exact le_refl _
      · exact hlater hc
    · exact hlater hc

theorem finiteEntries_pairwise (k : ℕ) (values : List F) :
    (finiteEntries k values).Pairwise fun a b => a.1 < b.1 := by
  induction values generalizing k with
  | nil => exact .nil
  | cons v values ih =>
    rw [finiteEntries]
    split
    · refine List.pairwise_cons.mpr ⟨fun c hc => ?_, ih (k + 1)⟩
      have hplace := finiteEntries_place (k + 1) values c hc
      dsimp only
      omega
    · exact ih (k + 1)

theorem finiteEntries_values (k : ℕ) (values : List F) :
    (finiteEntries k values).map Prod.snd = values.filter PyFloat.isFinite := by
  induction values generalizing k with
  | nil => rfl
  | cons v values ih =>
    rw [finiteEntries, List.filter_cons]
    split
    · rw [List.map_cons, ih]
    · exact ih (k + 1)

/-- The entries from place `m` on are those of the values from there on. -/
theorem finiteEntries_from (m k : ℕ) (values : List F) :
    ((finiteEntries k values).dropWhile fun c => decide (c.1 < m)).map Prod.snd =
      (values.drop (m - k)).filter PyFloat.isFinite := by
  induction values generalizing k with
  | nil => simp [finiteEntries]
  | cons v values ih =>
    by_cases hk : k < m
    · have hdrop : (v :: values).drop (m - k) = values.drop (m - (k + 1)) := by
        rw [show m - k = m - (k + 1) + 1 by omega, List.drop_succ_cons]
      rw [hdrop, ← ih (k + 1), finiteEntries]
      split
      · rw [List.dropWhile_cons_of_pos (by simpa using hk)]
      · rfl
    · have hall : ((finiteEntries k (v :: values)).dropWhile fun c => decide (c.1 < m)) =
          finiteEntries k (v :: values) := by
        apply List.dropWhile_eq_self_iff.mpr
        intro hpos
        have hplace := finiteEntries_place k (v :: values) _ (List.getElem_mem hpos)
        simp only [decide_eq_true_eq]
        omega
      rw [hall, finiteEntries_values, show m - k = 0 by omega, List.drop_zero]

/-- A number that comes in makes the earlier ones useless that can no longer be the extreme. -/
def windowDrops : Aggregate → F → F → Bool
  | .max => fun v x => decide (x ≤ v)
  | .min => fun v x => decide (v ≤ x)
  | _ => fun _ _ => false

/-- The entries of the numbers of the window before the next bar. -/
def windowEntries (window : ℕ) (front : List F) : List (ℕ × F) :=
  (finiteEntries 0 front).dropWhile fun c => decide (c.1 + window < front.length)

theorem windowEntries_values (window : ℕ) (front : List F) :
    (windowEntries window front).map Prod.snd =
      (front.drop (front.length - window)).filter PyFloat.isFinite := by
  have hsame : (fun c : ℕ × F => decide (c.1 + window < front.length)) =
      fun c => decide (c.1 < front.length - window) := by
    funext c
    simp only [decide_eq_decide]
    omega
  rw [windowEntries, hsame, finiteEntries_from, Nat.sub_zero]

theorem windowEntries_concat (window : ℕ) (front : List F) (v : F) :
    windowEntries window (front ++ [v]) =
      (windowEntries window front ++ if PyFloat.isFinite v then [(front.length, v)] else
        []).dropWhile fun c => decide (c.1 + window < front.length + 1) := by
  rw [windowEntries, windowEntries, finiteEntries_concat, Nat.zero_add, List.length_append,
    List.length_singleton, dropWhile_dropWhile_append]
  intro c hc
  have hlt : c.1 + window < front.length := of_decide_eq_true hc
  exact decide_eq_true (by omega)

/-- The deque of `_rolling_metric` after a front of the series: the survivors of the window before
its last bar. -/
structure DequeAt (aggregate : Aggregate) (window : ℕ) (front : List F) (s : DequeState F) : Prop where
  place : s.place = front.length
  previous : s.previous = front.getLast?
  candidates : s.candidates =
    survivors (fun a b => windowDrops aggregate a.2 b.2) (windowEntries window front.dropLast)

theorem pushPrevious_of_finite {s : DequeState F} (hprevious : s.previous = some v)
    (hv : PyFloat.isFinite v = true) (aggregate : Aggregate) :
    pushPrevious aggregate s =
      (s.candidates.rdropWhile fun c => windowDrops aggregate v c.2) ++ [(s.place - 1, v)] := by
  have hkeep : ∀ l : List (ℕ × F), l.rdropWhile (fun _ => false) = l := fun l =>
    List.rdropWhile_eq_self_iff.mpr fun _ => Bool.false_ne_true
  unfold pushPrevious
  rw [hprevious]
  dsimp only
  rw [if_pos hv]
  cases aggregate with
  | max => rfl
  | min => rfl
  | _ => simp only [windowDrops, hkeep]

/-- What the deque holds once the window of the next bar is in place. -/
theorem DequeAt.advanced {s : DequeState F} (h : DequeAt aggregate window front s) :
    ((pushPrevious aggregate s).dropWhile fun c => decide (c.1 + window < s.place)) =
      survivors (fun a b => windowDrops aggregate a.2 b.2) (windowEntries window front) := by
  rcases List.eq_nil_or_concat front with rfl | ⟨front, v, rfl⟩
  · have hpush : pushPrevious aggregate s = [] := by
      rw [pushPrevious, h.previous, h.candidates]
      rfl
    rw [hpush]
    rfl
  · rw [List.concat_eq_append] at h ⊢
    have hplace : s.place = front.length + 1 := by rw [h.place, List.length_append]; rfl
    have hprevious : s.previous = some v := by rw [h.previous, List.getLast?_concat]
    have hcandidates := h.candidates
    rw [List.dropLast_concat] at hcandidates
    have hpush : pushPrevious aggregate s =
        survivors (fun a b => windowDrops aggregate a.2 b.2) (windowEntries window front ++
          if PyFloat.isFinite v then [(front.length, v)] else []) := by
      by_cases hv : PyFloat.isFinite v = true
      · rw [pushPrevious_of_finite hprevious hv, if_pos hv, survivors_concat, hcandidates, hplace]
        rfl
      · rw [if_neg hv, List.append_nil, ← hcandidates, pushPrevious, hprevious]
        dsimp only
        rw [if_neg hv]
    have hordered : (windowEntries window front ++
        if PyFloat.isFinite v then [(front.length, v)] else []).Pairwise fun a b => a.1 < b.1 := by
      have hall := finiteEntries_pairwise 0 (front ++ [v])
      rw [finiteEntries_concat, Nat.zero_add] at hall
      exact hall.sublist ((List.dropWhile_sublist _).append (.refl _))
    rw [hpush, windowEntries_concat, survivors_dropWhile, hplace]
    refine hordered.imp fun {a b} hab hb => ?_
    have hlt : b.1 + window < front.length + 1 := hplace ▸ of_decide_eq_true hb
    exact decide_eq_true (by omega)

theorem DequeAt.step {s : DequeState F} (h : DequeAt aggregate window front s) (v : F) :
    DequeAt aggregate window (front ++ [v]) (windowExtremeStep aggregate window s v).1 where
  place := by
    rw [List.length_append, ← h.place]
    rfl
  previous := by
    rw [List.getLast?_concat]
    rfl
  candidates := by
    rw [List.dropLast_concat, ← h.advanced]
    rfl

theorem dequeAt_loopState (aggregate : Aggregate) (window : ℕ) (front : List F) :
    DequeAt aggregate window front
      (loopState (windowExtremeStep aggregate window) ⟨[], none, 0⟩ front) := by
  induction front using List.reverseRecOn with
  | nil => exact ⟨rfl, rfl, rfl⟩
  | append_singleton front v ih =>
    rw [loopState_concat]
    exact ih.step v

/-- The item of the deque that `_rolling_metric` reads. -/
def selectedValue (aggregate : Aggregate) (values : List F) : Option F :=
  let kept := survivors (windowDrops aggregate) values
  if aggregate = .last then kept.getLast? else kept.head?

theorem selectedValue_last (values : List F) : selectedValue .last values = windowValue .last values :=
  survivors_getLast? values

theorem foldl_congr_finite {f g : F → F → F} {values : List F}
    (hfg : ∀ x y, PyFloat.isFinite x = true → PyFloat.isFinite y = true → f x y = g x y)
    (hcases : ∀ x y, f x y = x ∨ f x y = y)
    (hvalues : ∀ v ∈ values, PyFloat.isFinite v = true) (hx : PyFloat.isFinite x = true) :
    values.foldl f x = values.foldl g x := by
  induction values generalizing x with
  | nil => rfl
  | cons v values ih =>
    have hv := hvalues v (List.mem_cons_self ..)
    have hnext : PyFloat.isFinite (f x v) = true := by
      rcases hcases x v with h | h
      · rw [h]
        exact hx
      · rw [h]
        exact hv
    rw [List.foldl_cons, List.foldl_cons, ← hfg x v hx hv,
      ih (fun u hu => hvalues u (List.mem_cons_of_mem _ hu)) hnext]

/-- The front of the deque is the extreme of the window when its drops follow the order. -/
theorem head?_extreme {drops : F → F → Bool} {pick : F → F → F}
    (htrans : ∀ x y z, drops x y = true → drops y z = true → drops x z = true)
    (htotal : ∀ x y : F, PyFloat.isFinite x = true → PyFloat.isFinite y = true →
      drops x y = true ∨ drops y x = true)
    (hpick : ∀ x y : F, PyFloat.isFinite x = true → PyFloat.isFinite y = true →
      (if drops y x = true then y else x) = pick x y)
    (hvalues : ∀ u ∈ v :: values, PyFloat.isFinite u = true) :
    (survivors drops (v :: values)).head? = some (values.foldl pick v) := by
  obtain ⟨hv, hrest⟩ := List.forall_mem_cons.mp hvalues
  have hhead := (survivors_head? htrans fun x hx y hy => htotal x y (hvalues x hx) (hvalues y hy)).1
  refine hhead.trans (congrArg some (foldl_congr_finite hpick (fun x y => ?_) hrest hv))
  by_cases hdrop : drops y x = true
  · exact .inr (if_pos hdrop)
  · exact .inl (if_neg hdrop)

theorem selectedValue_max (h : FiniteOrder F) {values : List F}
    (hvalues : ∀ v ∈ values, PyFloat.isFinite v = true) :
    selectedValue .max values = windowValue .max values := by
  cases values with
  | nil => rfl
  | cons v values =>
    refine head?_extreme (fun x y z hxy hyz => ?_) (fun x y hx hy => ?_) (fun x y hx hy => ?_) hvalues
    · exact decide_eq_true (h.trans z y x (of_decide_eq_true hyz) (of_decide_eq_true hxy))
    · exact (h.total y x hy hx).imp decide_eq_true decide_eq_true
    · simp only [windowDrops, pyMax, decide_eq_true_eq]
      by_cases hlt : x < y
      · have hle := (h.total x y hx hy).resolve_right ((h.lt_iff x y hx hy).mp hlt)
        rw [if_pos hle, if_pos hlt]
      · have hle : y ≤ x := not_not.mp fun hn => hlt ((h.lt_iff x y hx hy).mpr hn)
        rw [if_neg hlt]
        split
        · rename_i hxy
          exact h.antisymm y x hle hxy
        · rfl

theorem selectedValue_min (h : FiniteOrder F) {values : List F}
    (hvalues : ∀ v ∈ values, PyFloat.isFinite v = true) :
    selectedValue .min values = windowValue .min values := by
  cases values with
  | nil => rfl
  | cons v values =>
    refine head?_extreme (fun x y z hxy hyz => ?_) (fun x y hx hy => ?_) (fun x y hx hy => ?_) hvalues
    · exact decide_eq_true (h.trans x y z (of_decide_eq_true hxy) (of_decide_eq_true hyz))
    · exact (h.total x y hx hy).imp decide_eq_true decide_eq_true
    · simp only [windowDrops, pyMin, decide_eq_true_eq]
      by_cases hlt : y < x
      · have hle := (h.total y x hy hx).resolve_right ((h.lt_iff y x hy hx).mp hlt)
        rw [if_pos hle, if_pos hlt]
      · have hle : x ≤ y := not_not.mp fun hn => hlt ((h.lt_iff y x hy hx).mpr hn)
        rw [if_neg hlt]
        split
        · rename_i hyx
          exact h.antisymm y x hyx hle
        · rfl

/-- The aggregates the deque serves. -/
def usesDeque : Aggregate → Bool
  | .avg | .sum => false
  | _ => true

theorem selectedValue_eq (h : FiniteOrder F) (haggregate : usesDeque aggregate = true)
    {values : List F} (hvalues : ∀ v ∈ values, PyFloat.isFinite v = true) :
    selectedValue aggregate values = windowValue aggregate values := by
  cases aggregate with
  | max => exact selectedValue_max h hvalues
  | min => exact selectedValue_min h hvalues
  | last => exact selectedValue_last values
  | avg => cases haggregate
  | sum => cases haggregate

/-- One round of the deque loop yields what the window of the bar says. -/
theorem DequeAt.output (h : DequeAt aggregate window front s) (horder : FiniteOrder F)
    (haggregate : usesDeque aggregate = true) (v : F) (values : List F) :
    (windowExtremeStep aggregate window s v).2 =
      naiveRolling window aggregate (front ++ values) front.length := by
  have hwindow : windowBefore window front.length (front ++ values) =
      (windowEntries window front).map Prod.snd := by
    rw [windowEntries_values, windowBefore, List.take_left]
  have hfinite : ∀ u ∈ windowBefore window front.length (front ++ values),
      PyFloat.isFinite u = true := fun u hu => (List.mem_filter.mp hu).2
  have hselected := selectedValue_eq horder haggregate hfinite
  have hmap : (if aggregate = .last then
      (survivors (fun a b => windowDrops aggregate a.2 b.2) (windowEntries window front)).getLast?
      else (survivors (fun a b => windowDrops aggregate a.2 b.2)
        (windowEntries window front)).head?).map Prod.snd =
        windowValue aggregate (windowBefore window front.length (front ++ values)) := by
    rw [← hselected, selectedValue, hwindow, ← survivors_map Prod.snd]
    split
    · exact List.getLast?_map.symm
    · exact List.head?_map.symm
  unfold windowExtremeStep naiveRolling
  dsimp only
  rw [h.advanced, ← hmap, h.place]
  split
  · rename_i hnone
    rw [hnone]
    simp
  · rename_i c hsome
    rw [hsome]
    rfl

theorem length_naiveRollingValues (window : ℕ) (aggregate : Aggregate) (values : List F) :
    (naiveRollingValues window aggregate values).length = values.length := by
  rw [naiveRollingValues, List.length_map, List.length_range]

theorem naiveRollingValues_concat (window : ℕ) (aggregate : Aggregate) (values : List F) (v : F) :
    naiveRollingValues window aggregate (values ++ [v]) = naiveRollingValues window aggregate values ++
      [naiveRolling window aggregate (values ++ [v]) values.length] := by
  unfold naiveRollingValues
  rw [List.length_append, List.length_singleton, List.range_succ, List.map_append, List.map_singleton]
  congr 1
  apply List.map_congr_left
  intro i hi
  have hi : i ≤ values.length := (List.mem_range.mp hi).le
  rw [naiveRolling, naiveRolling, windowBefore, windowBefore, List.take_append_of_le_length hi]

/-- The deque computes the naive extremes and lookbacks. -/
theorem rollingMetricValues_deque (h : FiniteOrder F) (haggregate : usesDeque aggregate = true)
    (window : ℕ) (values : List F) :
    rollingMetricValues window aggregate values = naiveRollingValues window aggregate values := by
  have hloop : rollingMetricValues window aggregate values =
      loopMap (windowExtremeStep aggregate window) ⟨[], none, 0⟩ values := by
    cases aggregate <;> first | rfl | cases haggregate
  rw [hloop]
  clear hloop
  induction values using List.reverseRecOn with
  | nil => rfl
  | append_singleton values v ih =>
    rw [loopMap_concat, ih, naiveRollingValues_concat,
      (dequeAt_loopState aggregate window values).output h haggregate v [v]]

/-- The running totals at a place are the total of the values before it. -/
theorem runningTotals_getD (start : F) (values : List F) {k : ℕ} (hk : k ≤ values.length) (default : F) :
    (start :: loopMap (fun s x => (s + x, s + x)) start values).getD k default =
      (values.take k).foldl (· + ·) start := by
  induction values generalizing start k with
  | nil =>
    cases Nat.le_zero.mp hk
    rfl
  | cons v values ih =>
    cases k with
    | zero => rfl
    | succ k => exact ih (start + v) (Nat.le_of_succ_le_succ hk)

end Naive

section Exact

/-- The number of a float, with nothing for NaN. -/
def clean : Flt ℚ → ℚ
  | .num x => x
  | .nan => 0

theorem fltRat_isFinite (v : Flt ℚ) : PyFloat.isFinite v = true ↔ v = .num (clean v) := by
  cases v with
  | num x => exact iff_of_true rfl rfl
  | nan => exact iff_of_false nofun nofun

theorem cleaned_map (values : List (Flt ℚ)) :
    (values.map fun v => if PyFloat.isFinite v then v else 0) = values.map fun v => .num (clean v) := by
  apply List.map_congr_left
  intro v _
  cases v <;> rfl

theorem foldl_num (start : ℚ) (values : List ℚ) :
    (values.map Flt.num).foldl (· + ·) (Flt.num start) = Flt.num (start + values.sum) := by
  induction values generalizing start with
  | nil => rw [List.sum_nil, add_zero]; rfl
  | cons v values ih =>
    rw [List.map_cons, List.foldl_cons, List.sum_cons, ← add_assoc]
    exact ih (start + v)

theorem pySum_finite (values : List (Flt ℚ)) :
    pySum (values.filter PyFloat.isFinite) = .num (values.map clean).sum := by
  have hsum : ((values.filter PyFloat.isFinite).map clean).sum = (values.map clean).sum := by
    induction values with
    | nil => rfl
    | cons v values ih =>
      cases v with
      | num x =>
        have hfinite : PyFloat.isFinite (Flt.num x) = true := rfl
        rw [List.filter_cons_of_pos hfinite, List.map_cons, List.map_cons, List.sum_cons,
          List.sum_cons, ih]
      | nan =>
        have hfinite : ¬PyFloat.isFinite (Flt.nan : Flt ℚ) = true := nofun
        rw [List.filter_cons_of_neg hfinite, List.map_cons, List.sum_cons, ih]
        exact (zero_add _).symm
  have hnum : values.filter PyFloat.isFinite =
      ((values.filter PyFloat.isFinite).map clean).map Flt.num := by
    rw [List.map_map]
    refine (List.map_id _).symm.trans (List.map_congr_left fun v hv => ?_)
    exact (fltRat_isFinite v).mp (List.mem_filter.mp hv).2
  rw [hnum, pySum]
  refine (foldl_num 0 _).trans ?_
  rw [zero_add, hsum]

/-- The running total of the numbers before a place. -/
theorem totals_getD (past : List (Flt ℚ)) (v : Flt ℚ) {k : ℕ} (hk : k ≤ past.length) :
    (0 :: npCumsum ((past ++ [v]).map fun u => if PyFloat.isFinite u then u else 0)).getD k 0 =
      .num ((past.take k).map clean).sum := by
  have hlen : k ≤ ((past ++ [v]).map fun u => if PyFloat.isFinite u then u else 0).length := by
    rw [List.length_map, List.length_append]
    exact Nat.le_add_right_of_le hk
  rw [npCumsum, runningTotals_getD _ _ hlen, cleaned_map, ← List.map_take,
    List.take_append_of_le_length hk]
  refine (congrArg _ (List.map_map (g := Flt.num) (f := clean)).symm).trans ((foldl_num 0 _).trans ?_)
  rw [zero_add]

theorem windowTotal_eq (average : Bool) (window : ℕ) (past values : List (Flt ℚ)) (v : Flt ℚ) :
    windowTotal average window (past ++ [v]) =
      naiveRolling window (if average then .avg else .sum) (past ++ v :: values) past.length := by
  have hlast : (past ++ [v]).length - 1 = past.length := by simp
  have htake : ∀ k, k ≤ past.length → (past ++ [v]).take k = past.take k :=
    fun k hk => List.take_append_of_le_length hk
  have hbegin : past.length - window ≤ past.length := Nat.sub_le _ _
  have hsplit := List.take_append_drop (past.length - window) past
  have hwindow : windowBefore window past.length (past ++ v :: values) =
      (past.drop (past.length - window)).filter PyFloat.isFinite := by
    rw [windowBefore, List.take_left]
  have hcount : (past.filter PyFloat.isFinite).length -
      ((past.take (past.length - window)).filter PyFloat.isFinite).length =
        (windowBefore window past.length (past ++ v :: values)).length := by
    have hlength := congrArg (fun l => (l.filter PyFloat.isFinite).length) hsplit
    simp only [List.filter_append, List.length_append] at hlength
    rw [hwindow]
    omega
  have htotal : (Flt.num (past.map clean).sum : Flt ℚ) -
      .num ((past.take (past.length - window)).map clean).sum =
        pySum (windowBefore window past.length (past ++ v :: values)) := by
    have hsum := congrArg (fun l => (l.map clean).sum) hsplit
    simp only [List.map_append, List.sum_append] at hsum
    rw [hwindow, pySum_finite, ← hsum]
    exact congrArg Flt.num (add_sub_cancel_left _ _)
  simp only [windowTotal, hlast, totals_getD past v (le_refl _), totals_getD past v hbegin,
    htake _ (le_refl _), htake _ hbegin, List.take_length, hcount, htotal, naiveRolling]
  generalize windowBefore window past.length (past ++ v :: values) = inside
  have hnever : (if average then Aggregate.avg else .sum) ≠ .last := by cases average <;> nofun
  by_cases hready : window ≤ past.length
  · have hwarm : ¬((if average then Aggregate.avg else .sum) ≠ .last ∧ past.length < window) :=
      fun h => not_lt.mpr hready h.2
    cases inside with
    | nil =>
      rw [if_neg fun h => h.2 rfl, if_neg hwarm]
      cases average <;> rfl
    | cons u inside =>
      rw [if_pos ⟨hready, Nat.succ_ne_zero _⟩, if_neg hwarm]
      cases average <;> rfl
  · rw [if_neg fun h => hready h.1, if_pos ⟨hnever, not_le.mp hready⟩]

theorem rollingMetricValues_total (average : Bool) (window : ℕ) (values : List (Flt ℚ)) :
    prefixMap (windowTotal average window) values =
      naiveRollingValues window (if average then .avg else .sum) values := by
  unfold prefixMap naiveRollingValues
  apply List.map_congr_left
  intro i hi
  have hi : i < values.length := List.mem_range.mp hi
  have hsplit : values = values.take i ++ values[i] :: values.drop (i + 1) := by
    rw [← List.drop_eq_getElem_cons hi, List.take_append_drop]
  have htotal := windowTotal_eq average window (values.take i) (values.drop (i + 1)) values[i]
  rw [← hsplit, List.length_take_of_le hi.le] at htotal
  rw [List.take_succ_eq_append_getElem hi]
  exact htotal

/-- Floats over linearly ordered numbers are ordered where they are numbers. -/
theorem finiteOrder_flt [PyFloat K] [PySqrt K] (value : K → ℚ) (hinj : Function.Injective value)
    (hle : ∀ x y : K, x ≤ y ↔ value x ≤ value y) (hlt : ∀ x y : K, x < y ↔ value x < value y) :
    FiniteOrder (Flt K) where
  trans a b c hab hbc := by
    cases a with
    | nan => exact hab.elim
    | num x =>
      cases b with
      | nan => exact hab.elim
      | num y =>
        cases c with
        | nan => exact hbc.elim
        | num z => exact (hle x z).mpr (((hle x y).mp hab).trans ((hle y z).mp hbc))
  total a b ha hb := by
    cases a with
    | nan => cases ha
    | num x =>
      cases b with
      | nan => cases hb
      | num y => exact (le_total (value x) (value y)).imp (hle x y).mpr (hle y x).mpr
  lt_iff a b ha hb := by
    cases a with
    | nan => cases ha
    | num x =>
      cases b with
      | nan => cases hb
      | num y => exact (hlt x y).trans (not_le.symm.trans (hle y x).not.symm)
  antisymm a b hab hba := by
    cases a with
    | nan => exact hab.elim
    | num x =>
      cases b with
      | nan => exact hab.elim
      | num y => exact congrArg Flt.num (hinj (le_antisymm ((hle x y).mp hab) ((hle y x).mp hba)))

theorem finiteOrder_rat : FiniteOrder (Flt ℚ) :=
  finiteOrder_flt id Function.injective_id (fun _ _ => Iff.rfl) fun _ _ => Iff.rfl

theorem finiteOrder_binary64 : FiniteOrder (Flt Binary64) := by
  refine finiteOrder_flt Binary64.value (fun x y h => ?_) (fun _ _ => Iff.rfl) fun _ _ => Iff.rfl
  cases x
  cases y
  exact congrArg Binary64.mk h

/-- In exact arithmetic every aggregate is the naive one. -/
theorem rollingMetricValues_exact (window : ℕ) (aggregate : Aggregate) (values : List (Flt ℚ)) :
    rollingMetricValues window aggregate values = naiveRollingValues window aggregate values := by
  cases aggregate with
  | avg => exact rollingMetricValues_total true window values
  | sum => exact rollingMetricValues_total false window values
  | max => exact rollingMetricValues_deque finiteOrder_rat rfl window values
  | min => exact rollingMetricValues_deque finiteOrder_rat rfl window values
  | last => exact rollingMetricValues_deque finiteOrder_rat rfl window values

end Exact

section Store
variable {F : Type} [NumPy F]

/-- `_rolling_metric` answers with the naive definition of every ticker's series. -/
def RollingExact (F : Type) [NumPy F] (aggregate : Aggregate) : Prop :=
  ∀ (S : PreparedFeatureStore F) (metric : String) (window : ℕ) (c c' : FeatureCaches F)
    (source : List F), c.rolling.get? (normalName metric, window, aggregate) = none →
    (S.metricSeries metric).exec c = (.ok source, c') →
    ((S.rollingMetric metric window aggregate).exec c).1 =
      .ok (S.byTicker (naiveRollingValues window aggregate) source)

theorem rollingMetric_exec {S : PreparedFeatureStore F} {c c' : FeatureCaches F}
    (hcache : c.rolling.get? (normalName metric, window, aggregate) = none)
    (hsource : (S.metricSeries metric).exec c = (.ok source, c')) :
    ((S.rollingMetric metric window aggregate).exec c).1 =
      .ok (S.byTicker (rollingMetricValues window aggregate) source) := by
  unfold PreparedFeatureStore.rollingMetric PreparedFeatureStore.rollingMetricWith
  dsimp only
  rw [StateE.exec_get_bind, hcache]
  dsimp only
  rw [StateE.exec_bind_ok hsource]
  rfl

theorem rollingExact_of_values
    (h : ∀ window (values : List F),
      rollingMetricValues window aggregate values = naiveRollingValues window aggregate values) :
    RollingExact F aggregate := by
  intro S metric window c c' source hcache hsource
  rw [rollingMetric_exec hcache hsource, funext (h window)]

end Store

/-- The rolling metrics are the naive ones: the extremes and the lookback for doubles, all of them
where sums are exact. -/
theorem rollingMetric_exact (aggregate : Aggregate) :
    (usesDeque aggregate = true → RollingExact (Flt Binary64) aggregate) ∧
      RollingExact (Flt ℚ) aggregate :=
  ⟨fun h => rollingExact_of_values (rollingMetricValues_deque finiteOrder_binary64 h),
    rollingExact_of_values (rollingMetricValues_exact · aggregate)⟩

/-- Three bars of one name whose first close swallows the second in a sum of doubles. -/
def swallowingStore : PreparedFeatureStore (Flt Binary64) :=
  let bar := fun date close => ⟨date, "005930", close, close, close, close, 0, .nan, Dict.empty⟩
  ⟨[bar "2024-01-02" (.num ⟨2 ^ 53⟩), bar "2024-01-03" (.num ⟨1⟩), bar "2024-01-04" (.num ⟨1⟩)]⟩

theorem swallowingStore_max : ((swallowingStore.rollingMetric "close" 2 .max).exec .empty).1 =
    .ok (swallowingStore.byTicker (naiveRollingValues 2 .max) swallowingStore.closes) :=
  (rollingMetric_exact .max).1 rfl swallowingStore "close" 2 .empty .empty _ rfl rfl

/-- The running totals of doubles lose the single close of the window. -/
theorem rollingMetric_inexact : ¬RollingExact (Flt Binary64) .sum := by
  intro h
  have hclose : (swallowingStore.metricSeries "close").exec .empty =
      (.ok swallowingStore.closes, .empty) := rfl
  have hexact := h swallowingStore "close" 1 .empty .empty swallowingStore.closes rfl hclose
  rw [rollingMetric_exec rfl hclose] at hexact
  have hdiffer : swallowingStore.byTicker (rollingMetricValues 1 .sum) swallowingStore.closes ≠
      swallowingStore.byTicker (naiveRollingValues 1 .sum) swallowingStore.closes := by
    decide +kernel
  exact hdiffer (Except.ok.inj hexact)

end QuantAgent.Features
