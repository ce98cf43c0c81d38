import QuantAgent.Lib.SortedSet
import QuantAgent.Features.Store

namespace QuantAgent.WalkForward
open Features
set_option autoImplicit true

structure WalkForwardPolicy where
  tier : String
  warmupMonths : ℕ
  trainMonths : ℕ
  validationMonths : ℕ
  evaluationMonths : ℕ
  rollMonths : ℕ
  minValidFolds : ℕ
  minUniqueEvaluationMonths : ℕ
  minUniqueEvaluationSessions : ℕ
deriving DecidableEq

def FIVE_YEAR_WALK_FORWARD_POLICY : WalkForwardPolicy where
  tier := "full_window"
  warmupMonths := 1
  trainMonths := 12
  validationMonths := 3
  evaluationMonths := 1
  rollMonths := 1
  minValidFolds := 24
  minUniqueEvaluationMonths := 24
  minUniqueEvaluationSessions := 480

def WALK_FORWARD_SHORT_WINDOW_MAX_MONTHS : ℕ := 15

def WALK_FORWARD_FULL_WINDOW_MIN_MONTHS : ℕ := 41

/-- The fold geometry for a count of loaded months. -/
def walkForwardPolicyFor (months : ℕ) : WalkForwardPolicy :=
  if months ≤ WALK_FORWARD_SHORT_WINDOW_MAX_MONTHS then
    { tier := "short_window"
      warmupMonths := 1
      trainMonths := 6
      validationMonths := 1
      evaluationMonths := 1
      rollMonths := 1
      minValidFolds := 3
      minUniqueEvaluationMonths := 3
      minUniqueEvaluationSessions := 60 }
  else if months < WALK_FORWARD_FULL_WINDOW_MIN_MONTHS then
    let folds := max 6 (months - 17)
    { tier := "medium_window"
      warmupMonths := 1
      trainMonths := 12
      validationMonths := 3
      evaluationMonths := 1
      rollMonths := 1
      minValidFolds := folds
      minUniqueEvaluationMonths := folds
      minUniqueEvaluationSessions := 20 * folds }
  else FIVE_YEAR_WALK_FORWARD_POLICY

structure WalkForwardFold where
  foldIndex : ℕ
  warmupSessions : List String
  trainSessions : List String
  validationSessions : List String
  evaluationSessions : List String
deriving DecidableEq

structure SplitPolicy where
  warmupSessions : List String
  folds : List WalkForwardFold
  finalLockboxSessions : List String
  walkForward : WalkForwardPolicy

inductive WalkForwardStatus
  | ready
  | insufficientSample
deriving DecidableEq, Repr

structure WalkForwardSample where
  sessionCount : ℕ
  validFoldCount : ℕ
  uniqueEvaluationMonthCount : ℕ
  uniqueEvaluationSessionCount : ℕ
  status : WalkForwardStatus
  policy : WalkForwardPolicy

/-- `session[:7]` -/
def monthOf (session : String) : String := String.ofList (session.toList.take 7)

/-- `range(0, stop, step)` -/
def pyRange (stop step : ℕ) : List ℕ := (List.range stop).filter fun i => i % step = 0

/-- `xs[start : start + count]` -/
def slice (start count : ℕ) (xs : List α) : List α := (xs.drop start).take count

section
variable {F : Type} [NumPy F]

/-- The date of a row that has one. -/
def session? (row : Row F) : Option String :=
  match row.value "date" with
  | .none => none
  | cell => some cell.str

def sessions (rows : List (Row F)) : List String := sortedSet (rows.filterMap session?)

def months (rows : List (Row F)) : List String := sortedSet ((sessions rows).map monthOf)

def sessionsByMonth (rows : List (Row F)) (month : String) : List String :=
  (sessions rows).filter fun session => monthOf session = month

/-- The fold of a start month. -/
def foldAt (window : WalkForwardPolicy) (months : List String)
    (sessionsByMonth : String → List String) (start index : ℕ) : WalkForwardFold :=
  let trainStart := start + window.warmupMonths
  let validationStart := trainStart + window.trainMonths
  { foldIndex := index
    warmupSessions := (slice start window.warmupMonths months).flatMap sessionsByMonth
    trainSessions := (slice trainStart window.trainMonths months).flatMap sessionsByMonth
    validationSessions := (slice validationStart window.validationMonths months).flatMap sessionsByMonth
    evaluationSessions := (slice (validationStart + window.validationMonths)
      window.evaluationMonths months).flatMap sessionsByMonth }

def WalkForwardFold.filled (fold : WalkForwardFold) : Bool :=
  fold.warmupSessions ≠ [] && fold.trainSessions ≠ [] && fold.validationSessions ≠ [] &&
    fold.evaluationSessions ≠ []

def walkForwardSplitPolicy (rows : List (Row F)) : SplitPolicy :=
  let months := months rows
  let window := walkForwardPolicyFor months.length
  let span := window.trainMonths + window.validationMonths + window.evaluationMonths
  let starts := pyRange (months.length + 1 - (span + window.warmupMonths)) window.rollMonths
  let folds := starts.foldl (fun folds start =>
    let fold := foldAt window months (sessionsByMonth rows) start folds.length
    if fold.filled then folds ++ [fold] else folds) []
  { warmupSessions := (months.take window.warmupMonths).flatMap (sessionsByMonth rows)
    folds
    finalLockboxSessions := (folds.getLast?.map (·.evaluationSessions)).getD []
    walkForward := window }

def walkForwardSample (rows : List (Row F)) : WalkForwardSample :=
  let policy := walkForwardSplitPolicy rows
  let window := policy.walkForward
  let uniqueEvaluationSessions := (policy.folds.flatMap (·.evaluationSessions)).dedup
  let evaluationMonths := (uniqueEvaluationSessions.map monthOf).dedup
  { sessionCount := (sessions rows).length
    validFoldCount := policy.folds.length
    uniqueEvaluationMonthCount := evaluationMonths.length
    uniqueEvaluationSessionCount := uniqueEvaluationSessions.length
    status :=
      if policy.folds.length ≥ window.minValidFolds ∧
          evaluationMonths.length ≥ window.minUniqueEvaluationMonths ∧
          uniqueEvaluationSessions.length ≥ window.minUniqueEvaluationSessions then .ready
      else .insufficientSample
    policy := window }

/-- The rows of the first `k` calendar months. -/
def wholeMonths (k : ℕ) (rows : List (Row F)) : List (Row F) :=
  rows.filter fun row => (session? row).all fun session => monthOf session ∈ (months rows).take k

/-- Every calendar month that has a session has at least 21. -/
def FullMonths (rows : List (Row F)) : Prop :=
  ∀ month ∈ months rows, 21 ≤ (sessionsByMonth rows month).length

theorem mem_sessions {rows : List (Row F)} {session : String} :
    session ∈ sessions rows ↔ ∃ row ∈ rows, session? row = some session := by
  rw [sessions, mem_sortedSet, List.mem_filterMap]

theorem mem_months {rows : List (Row F)} :
    month ∈ months rows ↔ ∃ session ∈ sessions rows, monthOf session = month := by
  rw [months, mem_sortedSet, List.mem_map]

theorem nodup_months (rows : List (Row F)) : (months rows).Nodup := nodup_sortedSet _

theorem nodup_sessionsByMonth (rows : List (Row F)) (month : String) :
    (sessionsByMonth rows month).Nodup :=
  (nodup_sortedSet _).filter _

theorem mem_sessionsByMonth {rows : List (Row F)} {session : String} :
    session ∈ sessionsByMonth rows month ↔ session ∈ sessions rows ∧ monthOf session = month := by
  rw [sessionsByMonth, List.mem_filter, decide_eq_true_eq]

theorem sessions_wholeMonths (k : ℕ) (rows : List (Row F)) :
    sessions (wholeMonths k rows) =
      (sessions rows).filter fun session => monthOf session ∈ (months rows).take k := by
  apply sortedSet_eq ((sortedSet_pairwise _).filter _)
  intro session
  rw [List.mem_filterMap, List.mem_filter, mem_sortedSet, List.mem_filterMap, decide_eq_true_eq]
  constructor
  · rintro ⟨row, hrow, hsession⟩
    obtain ⟨hmem, hkept⟩ := List.mem_filter.mp hrow
    rw [hsession, Option.all_some, decide_eq_true_eq] at hkept
    exact ⟨⟨row, hmem, hsession⟩, hkept⟩
  · rintro ⟨⟨row, hmem, hsession⟩, hkept⟩
    refine ⟨row, List.mem_filter.mpr ⟨hmem, ?_⟩, hsession⟩
    rw [hsession, Option.all_some, decide_eq_true_eq]
    exact hkept

theorem months_wholeMonths (k : ℕ) (rows : List (Row F)) :
    months (wholeMonths k rows) = (months rows).take k := by
  apply sortedSet_eq ((sortedSet_pairwise _).sublist (List.take_sublist ..))
  intro month
  rw [List.mem_map, sessions_wholeMonths]
  constructor
  · rintro ⟨session, hsession, rfl⟩
    exact of_decide_eq_true (List.mem_filter.mp hsession).2
  · intro hmonth
    obtain ⟨session, hsession, rfl⟩ := mem_months.mp (List.mem_of_mem_take hmonth)
    exact ⟨session, List.mem_filter.mpr ⟨hsession, decide_eq_true hmonth⟩, rfl⟩

theorem sessionsByMonth_wholeMonths {k : ℕ} {rows : List (Row F)}
    (hmonth : month ∈ (months rows).take k) :
    sessionsByMonth (wholeMonths k rows) month = sessionsByMonth rows month := by
  rw [sessionsByMonth, sessions_wholeMonths, List.filter_filter]
  apply List.filter_congr
  intro session _
  by_cases hm : monthOf session = month
  · simp [hm, hmonth]
  · simp [hm]

theorem FullMonths.wholeMonths {rows : List (Row F)} (h : FullMonths rows) (k : ℕ) :
    FullMonths (wholeMonths k rows) := by
  intro month hmonth
  rw [months_wholeMonths] at hmonth
  rw [sessionsByMonth_wholeMonths hmonth]
  exact h month (List.mem_of_mem_take hmonth)

end

section Geometry
variable {window : WalkForwardPolicy} {months : List String} {sessionsByMonth : String → List String}

/-- The months of a fold before its evaluation. -/
def WalkForwardPolicy.lead (window : WalkForwardPolicy) : ℕ :=
  window.warmupMonths + window.trainMonths + window.validationMonths

/-- Folds that roll by one month and evaluate one month. -/
structure WalkForwardPolicy.Monthly (window : WalkForwardPolicy) : Prop where
  warmup : 0 < window.warmupMonths
  train : 0 < window.trainMonths
  validation : 0 < window.validationMonths
  evaluation : window.evaluationMonths = 1
  roll : window.rollMonths = 1

theorem walkForwardPolicyFor_monthly (n : ℕ) : (walkForwardPolicyFor n).Monthly := by
  unfold walkForwardPolicyFor
  split
  · exact ⟨Nat.one_pos, Nat.succ_pos 5, Nat.one_pos, rfl, rfl⟩
  split
  · exact ⟨Nat.one_pos, Nat.succ_pos 11, Nat.succ_pos 2, rfl, rfl⟩
  · exact ⟨Nat.one_pos, Nat.succ_pos 11, Nat.succ_pos 2, rfl, rfl⟩

theorem le_length_flatMap {f : α → List β} (xs : List α) (h : ∀ x ∈ xs, k ≤ (f x).length) :
    k * xs.length ≤ (xs.flatMap f).length := by
  induction xs with
  | nil => exact Nat.zero_le _
  | cons x xs ih =>
    have hx := h x (List.mem_cons_self ..)
    have hrest := ih fun y hy => h y (List.mem_cons_of_mem _ hy)
    rw [List.flatMap_cons, List.length_append, List.length_cons, Nat.mul_succ]
    omega

theorem length_flatMap_le {f : α → List β} (xs : List α) (h : ∀ x ∈ xs, (f x).length ≤ k) :
    (xs.flatMap f).length ≤ k * xs.length := by
  induction xs with
  | nil => exact Nat.zero_le _
  | cons x xs ih =>
    have hx := h x (List.mem_cons_self ..)
    have hrest := ih fun y hy => h y (List.mem_cons_of_mem _ hy)
    rw [List.flatMap_cons, List.length_append, List.length_cons, Nat.mul_succ]
    omega

theorem mem_of_mem_slice (h : x ∈ slice start count xs) : x ∈ xs :=
  List.mem_of_mem_drop (List.mem_of_mem_take h)

theorem le_length_slice_flatMap (h : ∀ month ∈ months, k ≤ (sessionsByMonth month).length)
    (hstop : start + count ≤ months.length) :
    k * count ≤ ((slice start count months).flatMap sessionsByMonth).length := by
  have hcount : (slice start count months).length = count := by
    rw [slice, List.length_take, List.length_drop]
    omega
  have hle := le_length_flatMap (slice start count months) fun month hmonth =>
    h month (mem_of_mem_slice hmonth)
  rwa [hcount] at hle

theorem length_slice_flatMap_le (h : ∀ month ∈ months, (sessionsByMonth month).length ≤ k)
    (start count : ℕ) : ((slice start count months).flatMap sessionsByMonth).length ≤ k * count := by
  have hle := length_flatMap_le (slice start count months) fun month hmonth =>
    h month (mem_of_mem_slice hmonth)
  have hcount : (slice start count months).length ≤ count := List.length_take_le _ _
  exact hle.trans (Nat.mul_le_mul_left k hcount)

theorem slice_flatMap_ne_nil (hfilled : ∀ month ∈ months, sessionsByMonth month ≠ [])
    (hcount : 0 < count) (hstart : start < months.length) :
    (slice start count months).flatMap sessionsByMonth ≠ [] := by
  have hdrop : months.drop start = months[start] :: months.drop (start + 1) :=
    List.drop_eq_getElem_cons hstart
  obtain ⟨count, rfl⟩ := Nat.exists_eq_succ_of_ne_zero hcount.ne'
  rw [slice, hdrop, List.take_succ_cons, List.flatMap_cons]
  exact List.append_ne_nil_of_left_ne_nil (hfilled _ (List.getElem_mem hstart)) _

theorem foldAt_filled (h : window.Monthly) (hfilled : ∀ month ∈ months, sessionsByMonth month ≠ [])
    (hstart : start + window.lead < months.length) (index : ℕ) :
    (foldAt window months sessionsByMonth start index).filled = true := by
  obtain ⟨hwarmup, htrain, hvalidation, hevaluation, -⟩ := h
  unfold WalkForwardPolicy.lead at hstart
  simp only [WalkForwardFold.filled, foldAt, Bool.and_eq_true]
  refine ⟨⟨⟨decide_eq_true ?_, decide_eq_true ?_⟩, decide_eq_true ?_⟩, decide_eq_true ?_⟩
  · exact slice_flatMap_ne_nil hfilled hwarmup (by omega)
  · exact slice_flatMap_ne_nil hfilled htrain (by omega)
  · exact slice_flatMap_ne_nil hfilled hvalidation (by omega)
  · exact slice_flatMap_ne_nil hfilled (by omega) (by omega)

theorem pyRange_one (stop : ℕ) : pyRange stop 1 = List.range stop := by
  simp [pyRange, Nat.mod_one]

/-- Every start gives a fold. -/
theorem folds_eq (h : window.Monthly) (hfilled : ∀ month ∈ months, sessionsByMonth month ≠ [])
    (hstop : stop + window.lead ≤ months.length) :
    (List.range stop).foldl (fun folds start =>
      let fold := foldAt window months sessionsByMonth start folds.length
      if fold.filled then folds ++ [fold] else folds) [] =
      (List.range stop).map fun start => foldAt window months sessionsByMonth start start := by
  induction stop with
  | zero => rfl
  | succ stop ih =>
    rw [List.range_succ, List.foldl_append, ih (by omega), List.map_append]
    simp only [List.foldl_cons, List.foldl_nil, List.length_map, List.length_range,
      foldAt_filled h hfilled (show stop + window.lead < months.length by omega) stop, if_true,
      List.map_cons, List.map_nil]

theorem slice_one_flatMap (hstop : stop + lead ≤ months.length) :
    (List.range stop).flatMap (fun start => slice (start + lead) 1 months) =
      (months.drop lead).take stop := by
  induction stop with
  | zero => rfl
  | succ stop ih =>
    have hlt : stop < (months.drop lead).length := by
      rw [List.length_drop]
      omega
    have hslice : slice (stop + lead) 1 months = [(months.drop lead)[stop]] := by
      rw [slice, List.drop_eq_getElem_cons (show stop + lead < months.length by omega),
        List.take_succ_cons, List.take_zero]
      simp [Nat.add_comm]
    rw [List.range_succ, List.flatMap_append, ih (by omega), List.take_add_one,
      List.getElem?_eq_getElem hlt]
    simp only [List.flatMap_cons, List.flatMap_nil, List.append_nil, Option.toList_some, hslice]

end Geometry

section
variable {F : Type} [NumPy F]

theorem sessionsByMonth_ne_nil {rows : List (Row F)} (hmonth : month ∈ months rows) :
    sessionsByMonth rows month ≠ [] := by
  obtain ⟨session, hsession, hmonth⟩ := mem_months.mp hmonth
  exact List.ne_nil_of_mem (mem_sessionsByMonth.mpr ⟨hsession, hmonth⟩)

/-- The window of some rows, and the months its folds do not evaluate. -/
def windowOf (rows : List (Row F)) : WalkForwardPolicy := walkForwardPolicyFor (months rows).length

def evaluatedMonths (rows : List (Row F)) : List String := (months rows).drop (windowOf rows).lead

theorem walkForwardSplitPolicy_folds (rows : List (Row F)) :
    (walkForwardSplitPolicy rows).folds =
      (List.range ((months rows).length - (windowOf rows).lead)).map fun start =>
        foldAt (windowOf rows) (months rows) (sessionsByMonth rows) start start := by
  have hmonthly := walkForwardPolicyFor_monthly (months rows).length
  have hstop : (months rows).length + 1 - ((windowOf rows).trainMonths +
      (windowOf rows).validationMonths + (windowOf rows).evaluationMonths +
      (windowOf rows).warmupMonths) = (months rows).length - (windowOf rows).lead := by
    rw [windowOf, hmonthly.evaluation, WalkForwardPolicy.lead]
    omega
  have hfolds : (walkForwardSplitPolicy rows).folds =
      (pyRange ((months rows).length + 1 - ((windowOf rows).trainMonths +
        (windowOf rows).validationMonths + (windowOf rows).evaluationMonths +
        (windowOf rows).warmupMonths)) (windowOf rows).rollMonths).foldl (fun folds start =>
          let fold := foldAt (windowOf rows) (months rows) (sessionsByMonth rows) start folds.length
          if fold.filled then folds ++ [fold] else folds) [] := rfl
  have hroll : (windowOf rows).rollMonths = 1 := hmonthly.roll
  rw [hfolds, hstop, hroll, pyRange_one]
  by_cases hle : (windowOf rows).lead ≤ (months rows).length
  · exact folds_eq hmonthly (fun _ hmonth => sessionsByMonth_ne_nil hmonth) (by omega)
  · rw [Nat.sub_eq_zero_of_le (not_le.mp hle).le]
    rfl

theorem filled_of_mem {rows : List (Row F)} (h : fold ∈ (walkForwardSplitPolicy rows).folds) :
    fold.filled = true := by
  rw [walkForwardSplitPolicy_folds] at h
  obtain ⟨start, hstart, rfl⟩ := List.mem_map.mp h
  rw [List.mem_range] at hstart
  have hlead : start + (windowOf rows).lead < (months rows).length := by omega
  exact foldAt_filled (walkForwardPolicyFor_monthly _)
    (fun _ hmonth => sessionsByMonth_ne_nil hmonth) hlead start

/-- The folds together evaluate every month after the lead of the first. -/
theorem evaluationSessions_folds (rows : List (Row F)) :
    (walkForwardSplitPolicy rows).folds.flatMap (·.evaluationSessions) =
      (evaluatedMonths rows).flatMap (sessionsByMonth rows) := by
  have hmonthly := walkForwardPolicyFor_monthly (months rows).length
  have hevaluation : (windowOf rows).evaluationMonths = 1 := hmonthly.evaluation
  rw [walkForwardSplitPolicy_folds, List.flatMap_map]
  have hfold : ∀ start, (foldAt (windowOf rows) (months rows) (sessionsByMonth rows) start
      start).evaluationSessions =
        (slice (start + (windowOf rows).lead) 1 (months rows)).flatMap (sessionsByMonth rows) := by
    intro start
    simp only [foldAt, hevaluation, WalkForwardPolicy.lead, Nat.add_assoc]
  simp only [hfold]
  rw [← List.flatMap_assoc]
  by_cases hle : (windowOf rows).lead ≤ (months rows).length
  · rw [slice_one_flatMap (by omega), evaluatedMonths, List.take_of_length_le]
    rw [List.length_drop]
  · have hempty : evaluatedMonths rows = [] := by
      rw [evaluatedMonths, List.drop_eq_nil_of_le (not_le.mp hle).le]
    rw [hempty, Nat.sub_eq_zero_of_le (not_le.mp hle).le]
    rfl

theorem nodup_evaluationSessions (rows : List (Row F)) :
    ((evaluatedMonths rows).flatMap (sessionsByMonth rows)).Nodup := by
  rw [List.nodup_flatMap]
  refine ⟨fun month _ => nodup_sessionsByMonth rows month, ?_⟩
  have hmonths : (evaluatedMonths rows).Nodup := (nodup_months rows).sublist (List.drop_sublist ..)
  refine hmonths.imp ?_
  intro month month' hne session hsession hsession'
  exact hne ((mem_sessionsByMonth.mp hsession).2.symm.trans (mem_sessionsByMonth.mp hsession').2)

theorem evaluationMonths_length (rows : List (Row F)) :
    (((evaluatedMonths rows).flatMap (sessionsByMonth rows)).map monthOf).dedup.length =
      (months rows).length - (windowOf rows).lead := by
  have hmonths : (evaluatedMonths rows).Nodup := (nodup_months rows).sublist (List.drop_sublist ..)
  have hperm : (((evaluatedMonths rows).flatMap (sessionsByMonth rows)).map monthOf).dedup.Perm
      (evaluatedMonths rows) := by
    rw [List.perm_ext_iff_of_nodup (List.nodup_dedup _) hmonths]
    intro month
    rw [List.mem_dedup, List.mem_map]
    constructor
    · rintro ⟨session, hsession, rfl⟩
      obtain ⟨month, hmonth, hmem⟩ := List.mem_flatMap.mp hsession
      rw [(mem_sessionsByMonth.mp hmem).2]
      exact hmonth
    · intro hmonth
      obtain ⟨session, hsession⟩ :=
        List.exists_mem_of_ne_nil _ (sessionsByMonth_ne_nil (List.mem_of_mem_drop hmonth))
      exact ⟨session, List.mem_flatMap.mpr ⟨month, hmonth, hsession⟩,
        (mem_sessionsByMonth.mp hsession).2⟩
  rw [hperm.length_eq, evaluatedMonths, List.length_drop]

theorem le_evaluationSessions_length {rows : List (Row F)} (h : FullMonths rows) :
    21 * ((months rows).length - (windowOf rows).lead) ≤
      ((evaluatedMonths rows).flatMap (sessionsByMonth rows)).length := by
  have hall := le_length_flatMap (evaluatedMonths rows) fun month hmonth =>
    h month (List.mem_of_mem_drop hmonth)
  rwa [evaluatedMonths, List.length_drop] at hall

/-- The counts of months that are enough for a walk-forward. -/
def ReadyMonths (n : ℕ) : Prop := 11 ≤ n ∧ n ≤ 15 ∨ 22 ≤ n

/-- Of full months, only their number matters. -/
theorem walkForwardSample_ready_iff {rows : List (Row F)} (h : FullMonths rows) :
    (walkForwardSample rows).status = .ready ↔ ReadyMonths (months rows).length := by
  have hsessions := le_evaluationSessions_length h
  have hstatus : (walkForwardSample rows).status = .ready ↔
      (windowOf rows).minValidFolds ≤ (months rows).length - (windowOf rows).lead ∧
      (windowOf rows).minUniqueEvaluationMonths ≤ (months rows).length - (windowOf rows).lead ∧
      (windowOf rows).minUniqueEvaluationSessions ≤
        ((evaluatedMonths rows).flatMap (sessionsByMonth rows)).length := by
    have hpolicy : (walkForwardSplitPolicy rows).walkForward = windowOf rows := rfl
    have hcount : (walkForwardSplitPolicy rows).folds.length =
        (months rows).length - (windowOf rows).lead := by
      rw [walkForwardSplitPolicy_folds, List.length_map, List.length_range]
    simp only [walkForwardSample, evaluationSessions_folds, (nodup_evaluationSessions rows).dedup,
      evaluationMonths_length, hpolicy, hcount, ge_iff_le]
    split
    · rename_i hmeets
      exact iff_of_true rfl hmeets
    · rename_i hmisses
      exact iff_of_false nofun hmisses
  rw [hstatus, ReadyMonths]
  generalize ((evaluatedMonths rows).flatMap (sessionsByMonth rows)).length = total at *
  unfold windowOf at *
  generalize (months rows).length = n at *
  by_cases hshort : n ≤ WALK_FORWARD_SHORT_WINDOW_MAX_MONTHS
  · rw [walkForwardPolicyFor, if_pos hshort] at hsessions ⊢
    simp only [WalkForwardPolicy.lead, WALK_FORWARD_SHORT_WINDOW_MAX_MONTHS] at hsessions hshort ⊢
    omega
  by_cases hmedium : n < WALK_FORWARD_FULL_WINDOW_MIN_MONTHS
  · rw [walkForwardPolicyFor, if_neg hshort, if_pos hmedium] at hsessions ⊢
    simp only [WalkForwardPolicy.lead, WALK_FORWARD_SHORT_WINDOW_MAX_MONTHS,
      WALK_FORWARD_FULL_WINDOW_MIN_MONTHS] at hsessions hshort hmedium ⊢
    omega
  · rw [walkForwardPolicyFor, if_neg hshort, if_neg hmedium] at hsessions ⊢
    simp only [WalkForwardPolicy.lead, FIVE_YEAR_WALK_FORWARD_POLICY,
      WALK_FORWARD_FULL_WINDOW_MIN_MONTHS] at hsessions hmedium ⊢
    omega

/-- Readiness survives from `k` whole months to `n` of them, unless the first is a short window and
the second too long for it and too short for the next. -/
theorem readiness_kept_iff {rows : List (Row F)} (h : FullMonths rows) (hk : k ≤ n)
    (hn : n ≤ (months rows).length) :
    ((walkForwardSample (wholeMonths k rows)).status = .ready →
        (walkForwardSample (wholeMonths n rows)).status = .ready) ↔
      ¬(11 ≤ k ∧ k ≤ 15 ∧ 16 ≤ n ∧ n ≤ 21) := by
  rw [walkForwardSample_ready_iff (h.wholeMonths k), walkForwardSample_ready_iff (h.wholeMonths n),
    months_wholeMonths, months_wholeMonths, List.length_take, List.length_take,
    min_eq_left hn, min_eq_left (hk.trans hn), ReadyMonths, ReadyMonths]
  omega

end

section Histories

def twoDigits (n : ℕ) : List Char := [Nat.digitChar (n / 10), Nat.digitChar (n % 10)]

/-- Month `i` after January 2020. -/
def monthText (i : ℕ) : List Char := ['2', '0', '2', Nat.digitChar (i / 12), '-'] ++ twoDigits (i % 12 + 1)

def dayText (j : ℕ) : List Char := '-' :: twoDigits (j + 1)

def dayRow (i j : ℕ) : Row (Flt ℚ) :=
  Dict.empty.insert "date" (.text (String.ofList (monthText i ++ dayText j)))

/-- A history of `n` months, each with its first 21 days. -/
def fullHistory (n : ℕ) : List (Row (Flt ℚ)) :=
  (List.range n).flatMap fun i => (List.range 21).map (dayRow i)

theorem monthOf_dayText (i j : ℕ) :
    monthOf (String.ofList (monthText i ++ dayText j)) = String.ofList (monthText i) := by
  rw [monthOf, String.toList_ofList, List.take_left' (show (monthText i).length = 7 from rfl)]

theorem mem_sessions_fullHistory {session : String} : session ∈ sessions (fullHistory n) ↔
    ∃ i < n, ∃ j < 21, session = String.ofList (monthText i ++ dayText j) := by
  have hdate : ∀ i j, session? (dayRow i j) = some (String.ofList (monthText i ++ dayText j)) := by
    intro i j
    simp [session?, Row.value, dayRow, Cell.str]
  simp only [mem_sessions, fullHistory, List.mem_flatMap, List.mem_map, List.mem_range]
  constructor
  · rintro ⟨row, ⟨i, hi, j, hj, rfl⟩, hsession⟩
    rw [hdate, Option.some.injEq] at hsession
    exact ⟨i, hi, j, hj, hsession.symm⟩
  · rintro ⟨i, hi, j, hj, rfl⟩
    exact ⟨dayRow i j, ⟨i, hi, j, hj, rfl⟩, hdate i j⟩

theorem mem_months_fullHistory :
    month ∈ months (fullHistory n) ↔ ∃ i < n, month = String.ofList (monthText i) := by
  rw [mem_months]
  constructor
  · rintro ⟨session, hsession, rfl⟩
    obtain ⟨i, hi, j, -, rfl⟩ := mem_sessions_fullHistory.mp hsession
    exact ⟨i, hi, monthOf_dayText i j⟩
  · rintro ⟨i, hi, rfl⟩
    exact ⟨_, mem_sessions_fullHistory.mpr ⟨i, hi, 0, by omega, rfl⟩, monthOf_dayText i 0⟩

theorem fullHistory_full (n : ℕ) : FullMonths (fullHistory n) := by
  intro month hmonth
  obtain ⟨i, hi, rfl⟩ := mem_months_fullHistory.mp hmonth
  have hdays : ((List.range 21).map dayText).Nodup := by decide
  have hnodup : ((List.range 21).map fun j => String.ofList (monthText i ++ dayText j)).Nodup := by
    have hcomp : ((List.range 21).map fun j => String.ofList (monthText i ++ dayText j)) =
        ((List.range 21).map dayText).map fun day => String.ofList (monthText i ++ day) := by
      rw [List.map_map]
      rfl
    rw [hcomp]
    refine hdays.map ?_
    intro day day' hday
    exact List.append_cancel_left (String.ofList_injective hday)
  have hsub : ((List.range 21).map fun j => String.ofList (monthText i ++ dayText j)) ⊆
      sessionsByMonth (fullHistory n) (String.ofList (monthText i)) := by
    intro session hsession
    obtain ⟨j, hj, rfl⟩ := List.mem_map.mp hsession
    exact mem_sessionsByMonth.mpr
      ⟨mem_sessions_fullHistory.mpr ⟨i, hi, j, List.mem_range.mp hj, rfl⟩, monthOf_dayText i j⟩
  have hle := (List.subperm_of_subset hnodup hsub).length_le
  rwa [List.length_map, List.length_range] at hle

theorem fullHistory_months (hn : n ≤ 16) : (months (fullHistory n)).length = n := by
  have hall : ((List.range 16).map monthText).Nodup := by decide
  have hmonths : ((List.range n).map monthText).Nodup :=
    hall.sublist ((List.range_sublist.mpr hn).map monthText)
  have hperm : (months (fullHistory n)).Perm
      (((List.range n).map monthText).map String.ofList) := by
    rw [List.perm_ext_iff_of_nodup (nodup_months _) (hmonths.map fun _ _ h => String.ofList_injective h)]
    intro month
    rw [mem_months_fullHistory]
    simp [eq_comm]
  rw [hperm.length_eq, List.length_map, List.length_map, List.length_range]

theorem readiness_kept_fullHistory :
    ((walkForwardSample (wholeMonths 11 (fullHistory 16))).status = .ready →
        (walkForwardSample (wholeMonths 15 (fullHistory 16))).status = .ready) ↔
      ¬(11 ≤ 11 ∧ 11 ≤ 15 ∧ 16 ≤ 15 ∧ 15 ≤ 21) :=
  readiness_kept_iff (fullHistory_full 16) (by decide) (by rw [fullHistory_months le_rfl]; decide)

/-- The sixteenth month takes the readiness of the first fifteen away. -/
theorem sixteenth_month_unready :
    ¬∀ rows : List (Row (Flt ℚ)), FullMonths rows → ∀ k n, k ≤ n → n ≤ (months rows).length →
      (walkForwardSample (wholeMonths k rows)).status = .ready →
        (walkForwardSample (wholeMonths n rows)).status = .ready := by
  intro h
  have hfull := fullHistory_full 16
  have hmonths : ∀ k ≤ 16, (months (wholeMonths k (fullHistory 16))).length = k := by
    intro k hk
    rw [months_wholeMonths, List.length_take, fullHistory_months le_rfl, min_eq_left hk]
  have hready : (walkForwardSample (wholeMonths 15 (fullHistory 16))).status = .ready := by
    rw [walkForwardSample_ready_iff (hfull.wholeMonths 15), hmonths 15 (by decide)]
    exact .inl ⟨by decide, le_refl 15⟩
  have hnext := h (fullHistory 16) hfull 15 16 (by decide) (fullHistory_months le_rfl).ge hready
  rw [walkForwardSample_ready_iff (hfull.wholeMonths 16), hmonths 16 (le_refl 16), ReadyMonths] at hnext
  omega

end Histories
end QuantAgent.WalkForward
