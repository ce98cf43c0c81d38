import QuantAgent.Features.Flags
import QuantAgent.Features.Consecutive
import QuantAgent.Lib.PyExcept

namespace QuantAgent.Features
set_option autoImplicit true

/-! What a condition is worth on a bar that lacks something the condition reads. The rendered code puts a
value in the place of what is missing; the store leaves the place empty. -/

/-- What is missing, by the value the rendered code puts in its place. -/
inductive Absence where
  /-- A figure that is not filed: negative infinity. -/
  | unfiled
  /-- An indicator without a value: NaN. -/
  | unmeasured
  /-- A total, a mean or a ratio over nothing: zero. -/
  | empty
deriving DecidableEq

/-- Where an operand stands against the numbers. -/
inductive Standing where
  | below
  | above
  | nowhere
  | at (x : Binary64)

def Absence.standing : Absence → Standing
  | unfiled => .below
  | unmeasured => .nowhere
  | empty => .at 0

/-- Where an operand stands after it is multiplied. -/
def Standing.scale (factor : Binary64) : Standing → Standing
  | below => if 0 < factor then below else if factor < 0 then above else nowhere
  | above => if 0 < factor then above else if factor < 0 then below else nowhere
  | nowhere => nowhere
  | .at x => .at (x * factor)

/-- The comparisons that go through, by where the operands stand. -/
def ConditionOperator.passes (operator : ConditionOperator) : Standing → Standing → Prop
  | .at x, .at y => operator.relates x.value y.value
  | .nowhere, _ | _, .nowhere => operator = .ne
  | .below, .below | .above, .above => operator = .lte ∨ operator = .gte ∨ operator = .eq
  | .below, _ | _, .above => operator = .lt ∨ operator = .lte ∨ operator = .ne
  | .above, _ | _, .below => operator = .gt ∨ operator = .gte ∨ operator = .ne

def ValueExpr.reads : ValueExpr F → List SeriesExpr
  | .series expr => [expr]
  | .literal _ => []
  | .scaled expr _ => expr.reads

/-- The level a window flag is held against, where it is no past price. -/
def flagReads (name : String) : List SeriesExpr :=
  if name = "breakout_high" then []
  else if name = "breakout_high_20" then []
  else if name = "close_below_lower_band_recent" then [.current "bb_lower"]
  else if name = "close_cross_above_lower_band" then [.current "bb_lower"]
  else [.current "sma20"]

/-- The series a test reads. -/
def TestExpr.reads : TestExpr F → List SeriesExpr
  | .flag name _ => flagReads name
  | .levels left _ right => [.current left, .current right]
  | .streak metric _ => [.filed (metric ++ "_up_streak")]
  | .between _ expr _ => [expr]
  | .compare left _ right => left.reads ++ right.reads
  | .cross _ left right previousLeft previousRight =>
    left.reads ++ right.reads ++ previousLeft.reads ++ previousRight.reads

/-- What a filed cell lacks. -/
def cellAbsence : Cell (Flt Binary64) → Option Absence
  | .number (.num _) | .bool _ => none
  | .number .nan => some .unmeasured
  | _ => some .unfiled

/-- What an indicator lacks. -/
def measureAbsence : Flt Binary64 → Option Absence
  | .num _ => none
  | .nan => some .unmeasured

/-- What a ratio lacks, by what it divides by. -/
def ratioAbsence : Flt Binary64 → Option Absence
  | .num x => if x.value = 0 then some .empty else none
  | .nan => some .unmeasured

def listAbsence (values : List (Flt Binary64)) : Option Absence :=
  if values = [] then some .empty else none

namespace SignalBar
variable (bar : SignalBar (Flt Binary64))

/-- What a series lacks on the bar. -/
def absence : SeriesExpr → Option Absence
  | .filed metric => cellAbsence (bar.row.value metric)
  | .current metric => measureAbsence (bar.current metric)
  | .indicator metric => measureAbsence (bar.row.ind metric)
  | .derived metric =>
    if metric = "high_252" then none
    else if metric = "low_252" then none
    else if metric = "close_to_sma20" then ratioAbsence (bar.current "sma20")
    else if metric = "close_to_sma200" then ratioAbsence (bar.current "sma200")
    else ratioAbsence (pyAverage (lastN 20 bar.hist.volumes))
  | .average metric window => listAbsence (lastN window (bar.history metric))
  | .reduce aggregate metric window =>
    match aggregate with
    | .max | .min => none
    | _ => listAbsence (lastN window (bar.history metric))
  | .closesBefore window => listAbsence (lastN window bar.hist.closes)
  | .missing => some .unmeasured
  | .unbound _ | .previous _ | .closes _ => none

/-- Something the test reads is missing on the bar. -/
def Misses (test : TestExpr (Flt Binary64)) : Prop := ∃ expr ∈ test.reads, bar.absence expr ≠ none

end SignalBar

/-- Where the value of an expression stands. -/
def Reading.standing : Reading (Flt Binary64) → Standing
  | value (.num x) => .at x
  | value .nan => .nowhere
  | infinite positive => if positive then .above else .below

namespace SignalBar
variable (bar : SignalBar (Flt Binary64))

/-- Where an operand stands on the bar: what is missing by its kind, what is there by its value. -/
def standing : ValueExpr (Flt Binary64) → Option Standing
  | .series expr =>
    match bar.absence expr with
    | some absence => some absence.standing
    | none => (bar.series expr).toOption.map Reading.standing
  | .literal (.num x) => some (.at x)
  | .scaled expr (.num factor) => (standing expr).map (Standing.scale factor)
  | .literal .nan | .scaled _ .nan => none

/-- The tests that a value in the place of a missing one makes true: a negated flag, a band around the
zero of an empty ratio, and the comparisons that go through for where the operands stand. -/
def Fooled : TestExpr (Flt Binary64) → Prop
  | .flag _ asserted => asserted = false
  | .between low expr high => bar.absence expr = some .empty ∧ low ≤ 0 ∧ 0 ≤ high
  | .compare left operator right =>
    ∃ x ∈ bar.standing left, ∃ y ∈ bar.standing right, operator.passes x y
  | .levels _ _ _ | .streak _ _ | .cross _ _ _ _ _ => False

end SignalBar

section Standings

/-- The value the rendered code reads where something is missing. -/
def Absence.reading : Absence → Reading (Flt Binary64)
  | unfiled => .infinite false
  | unmeasured => .value .nan
  | empty => .value 0

theorem Absence.standing_reading (kind : Absence) : kind.reading.standing = kind.standing := by
  cases kind <;> rfl

theorem cellAbsence_fin {row : Row (Flt Binary64)} (h : cellAbsence (row.value metric) = some kind) :
    row.fin metric = kind.reading := by
  unfold Row.fin
  cases hvalue : row.value metric with
  | none =>
    rw [hvalue] at h
    cases h
    rfl
  | text s =>
    rw [hvalue] at h
    cases h
    rfl
  | bool b =>
    rw [hvalue] at h
    cases h
  | number x =>
    rw [hvalue] at h
    cases x with
    | num x => cases h
    | nan =>
      cases h
      rfl

theorem cellAbsence_ne_empty (cell : Cell (Flt Binary64)) : cellAbsence cell ≠ some .empty := by
  cases cell with
  | number x => cases x <;> exact nofun
  | none => exact nofun
  | bool b => exact nofun
  | text s => exact nofun

theorem eq_of_measureAbsence {x : Flt Binary64} (h : measureAbsence x = some kind) :
    x = .nan ∧ kind = .unmeasured := by
  cases x with
  | num x => cases h
  | nan =>
    cases h
    exact ⟨rfl, rfl⟩

theorem eq_of_listAbsence {values : List (Flt Binary64)} (h : listAbsence values = some kind) :
    values = [] ∧ kind = .empty := by
  unfold listAbsence at h
  by_cases hvalues : values = []
  · rw [if_pos hvalues] at h
    cases h
    exact ⟨hvalues, rfl⟩
  · rw [if_neg hvalues] at h
    cases h

theorem guardedRatio_absence (x : Flt Binary64) {y : Flt Binary64} (h : ratioAbsence y = some kind) :
    Reading.value (guardedRatio x y) = kind.reading := by
  cases y with
  | nan =>
    cases h
    cases x <;> rfl
  | num y =>
    unfold ratioAbsence at h
    dsimp only at h
    by_cases hy : y.value = 0
    · rw [if_pos hy] at h
      cases h
      have hzero : ((.num y : Flt Binary64) != 0) = false := by
        change (!(y.value == 0)) = false
        rw [hy]
        rfl
      rw [guardedRatio, hzero]
      rfl
    · rw [if_neg hy] at h
      cases h

/-- What is missing is read as the value in its place. -/
theorem SignalBar.series_of_absence {bar : SignalBar (Flt Binary64)} {expr : SeriesExpr}
    (h : bar.absence expr = some kind) : bar.series expr = .ok kind.reading := by
  cases expr with
  | filed metric => exact congrArg Except.ok (cellAbsence_fin h)
  | current metric =>
    obtain ⟨hnan, rfl⟩ := eq_of_measureAbsence h
    rw [SignalBar.series, hnan]
    rfl
  | indicator metric =>
    obtain ⟨hnan, rfl⟩ := eq_of_measureAbsence h
    rw [SignalBar.series, hnan]
    rfl
  | derived metric =>
    have hratio : ∀ x y : Flt Binary64, ratioAbsence y = some kind →
        (raised (Reading.value <$> Except.ok (guardedRatio x y)) : Eval (Reading (Flt Binary64))) =
          .ok kind.reading :=
      fun x y hy => congrArg Except.ok (guardedRatio_absence x hy)
    rw [SignalBar.absence] at h
    rw [SignalBar.series, SignalBar.derived]
    split_ifs at h ⊢
    · exact hratio _ _ h
    · exact hratio _ _ h
    · exact hratio _ _ h
  | average metric window =>
    obtain ⟨hnil, rfl⟩ := eq_of_listAbsence h
    rw [SignalBar.series, hnil]
    rfl
  | reduce aggregate metric window =>
    cases aggregate with
    | max => cases h
    | min => cases h
    | avg | sum | last =>
      obtain ⟨hnil, rfl⟩ := eq_of_listAbsence h
      simp only [SignalBar.series, hnil]
      rfl
  | closesBefore window =>
    obtain ⟨hnil, rfl⟩ := eq_of_listAbsence h
    rw [SignalBar.series, hnil]
    rfl
  | missing =>
    cases h
    rfl
  | unbound metric => cases h
  | previous metric => cases h
  | closes window => cases h

theorem Reading.standing_mul (reading : Reading (Flt Binary64)) (factor : Binary64) :
    (reading.mul (.num factor)).standing = reading.standing.scale factor := by
  have hpos : ((0 : Flt Binary64) < .num factor) ↔ 0 < factor := Iff.rfl
  have hneg : (Flt.num factor < (0 : Flt Binary64)) ↔ factor < 0 := Iff.rfl
  cases reading with
  | value x =>
    cases x with
    | num x => rfl
    | nan => rfl
  | infinite positive =>
    rw [Reading.mul]
    simp only [hpos, hneg]
    by_cases h : 0 < factor
    · rw [if_pos h]
      cases positive <;> simp [Reading.standing, Standing.scale, h]
    · rw [if_neg h]
      by_cases h' : factor < 0
      · rw [if_pos h']
        cases positive <;> simp [Reading.standing, Standing.scale, h, h']
      · rw [if_neg h']
        cases positive <;> simp [Reading.standing, Standing.scale, h, h', NumPy.nan]

/-- An operand stands where its value stands. -/
theorem SignalBar.standing_eq (bar : SignalBar (Flt Binary64)) (expr : ValueExpr (Flt Binary64)) :
    bar.standing expr = (bar.value expr).toOption.map Reading.standing := by
  induction expr with
  | series expr =>
    rw [SignalBar.standing, SignalBar.value]
    cases h : bar.absence expr with
    | none => rfl
    | some kind =>
      rw [SignalBar.series_of_absence h]
      exact congrArg some kind.standing_reading.symm
  | literal x =>
    cases x with
    | num x => rfl
    | nan => rfl
  | scaled expr factor ih =>
    cases factor with
    | nan =>
      rw [SignalBar.standing, SignalBar.value]
      cases bar.value expr <;> rfl
    | num factor =>
      rw [SignalBar.standing, SignalBar.value, ih]
      cases bar.value expr with
      | error stop => rfl
      | ok reading => exact congrArg some (reading.standing_mul factor).symm

theorem ConditionOperator.passes_swap (x y : Standing) :
    (ConditionOperator.gt.passes x y ↔ ConditionOperator.lt.passes y x) ∧
      (ConditionOperator.gte.passes x y ↔ ConditionOperator.lte.passes y x) := by
  cases x <;> cases y <;> simp [passes, relates]

namespace Reading
variable (left right : Reading (Flt Binary64))

theorem lt_iff : left.lt right = true ↔ ConditionOperator.lt.passes left.standing right.standing := by
  have hnan := SignalBar.nan_incomparable
  have hnum : ∀ x y : Binary64, (Flt.num x < Flt.num y) ↔ x.value < y.value := fun _ _ => Iff.rfl
  have hmissing : isNaN (Flt.nan : Flt Binary64) = true := rfl
  rcases left with (x | _) | (_ | _) <;> rcases right with (y | _) | (_ | _) <;>
    simp [lt, standing, ConditionOperator.passes, ConditionOperator.relates, hnan, hnum, hmissing,
      SignalBar.num_not_nan]

theorem le_iff : left.le right = true ↔ ConditionOperator.lte.passes left.standing right.standing := by
  have hnan := SignalBar.nan_incomparable
  have hnum : ∀ x y : Binary64, (Flt.num x ≤ Flt.num y) ↔ x.value ≤ y.value := fun _ _ => Iff.rfl
  have hmissing : isNaN (Flt.nan : Flt Binary64) = true := rfl
  rcases left with (x | _) | (_ | _) <;> rcases right with (y | _) | (_ | _) <;>
    simp [le, standing, ConditionOperator.passes, ConditionOperator.relates, hnan, hnum, hmissing,
      SignalBar.num_not_nan]

theorem eq_iff : left.eq right = true ↔ ConditionOperator.eq.passes left.standing right.standing := by
  have hnum : ∀ x y : Binary64, (Flt.num x == Flt.num y) = decide (x.value = y.value) := fun _ _ => rfl
  have hnan : ∀ x : Flt Binary64, (x == Flt.nan) = false ∧ (Flt.nan == x) = false := by
    intro x
    cases x <;> exact ⟨rfl, rfl⟩
  rcases left with (x | _) | (_ | _) <;> rcases right with (y | _) | (_ | _) <;>
    simp [eq, standing, ConditionOperator.passes, ConditionOperator.relates, hnan, hnum]

theorem ne_iff : ConditionOperator.ne.passes left.standing right.standing ↔ ¬ConditionOperator.eq.passes
    left.standing right.standing := by
  rcases left with (x | _) | (_ | _) <;> rcases right with (y | _) | (_ | _) <;>
    simp [standing, ConditionOperator.passes, ConditionOperator.relates]

/-- A comparison of the rendered code goes through as the table says. -/
theorem compare_iff (operator : ConditionOperator) :
    left.compare operator right = true ↔ operator.passes left.standing right.standing := by
  have hnever : ∀ operator : ConditionOperator, operator.numeric = false →
      ¬operator.passes left.standing right.standing := by
    intro operator hnumeric
    rcases left with (x | _) | (_ | _) <;> rcases right with (y | _) | (_ | _) <;>
      cases operator <;> simp_all [standing, ConditionOperator.passes, ConditionOperator.relates,
        ConditionOperator.numeric]
  cases operator with
  | lt => exact left.lt_iff right
  | lte => exact left.le_iff right
  | gt => exact (right.lt_iff left).trans (ConditionOperator.passes_swap _ _).1.symm
  | gte => exact (right.le_iff left).trans (ConditionOperator.passes_swap _ _).2.symm
  | eq => exact left.eq_iff right
  | ne =>
    change (!left.eq right) = true ↔ _
    rw [ne_iff, ← left.eq_iff right, Bool.not_eq_true', Bool.not_eq_true]
  | between => exact iff_of_false Bool.false_ne_true (hnever _ rfl)
  | crossAbove => exact iff_of_false Bool.false_ne_true (hnever _ rfl)
  | crossBelow => exact iff_of_false Bool.false_ne_true (hnever _ rfl)

end Reading

end Standings

section Shapes
variable {F : Type} [NumPy F]

/-- What the compiler makes of a condition where the operator, or where both bars, matter. -/
def CompiledAs (condition : Condition F) : TestExpr F → Prop
  | .levels _ operator _ => operator ≠ .ne
  | .cross above left right previousLeft previousRight =>
    compileCross condition = some (.cross above left right previousLeft previousRight)
  | _ => True

theorem compileOne_shape {condition : Condition F} (h : compileOne condition = some test) :
    CompiledAs condition test := by
  have hcross : ∀ test, compileCross condition = some test → CompiledAs condition test := by
    intro test hsome
    have hshape := hsome
    unfold compileCross at hsome
    cases hright : condition.right with
    | metric right =>
      rw [hright] at hsome
      simp only [Option.bind_eq_bind, Option.bind_eq_some_iff, Option.pure_def, Option.some.injEq] at hsome
      obtain ⟨left, -, right, -, rfl⟩ := hsome
      exact hshape
    | number x =>
      rw [hright] at hsome
      cases hsome
    | band values =>
      rw [hright] at hsome
      cases hsome
  unfold compileOne at h
  dsimp only at h
  split at h
  · obtain ⟨asserted, -, rfl⟩ := Option.map_eq_some_iff.mp h
    trivial
  · split at h
    · obtain ⟨asserted, -, h⟩ := Option.bind_eq_some_iff.mp h
      split at h
      · simp only [Option.pure_def, Option.some.injEq] at h
        subst h
        dsimp only [CompiledAs]
        split <;> rintro ⟨⟩
      · cases h
    · split at h
      · split at h
        · split at h
          · cases h
            trivial
          · cases h
            trivial
          · cases h
        · cases h
      · split at h
        · cases h
        · split at h
          · simp only [Option.bind_eq_bind, Option.bind_eq_some_iff, Option.pure_def, Option.some.injEq] at h
            obtain ⟨value, -, bounds, -, rfl⟩ := h
            trivial
          · exact hcross _ h
          · exact hcross _ h
          · simp only [Option.bind_eq_bind, Option.bind_eq_some_iff, Option.pure_def, Option.some.injEq] at h
            obtain ⟨operands, -, rfl⟩ := h
            trivial

end Shapes

section Tests
variable {bar : SignalBar (Flt Binary64)}

theorem both_eq_true {x : Bool} {y : Eval Bool} :
    SignalBar.both x y = .ok true ↔ x = true ∧ y = .ok true := by
  cases x with
  | true => exact (and_iff_right rfl).symm
  | false => exact iff_of_false nofun nofun

theorem eq_nan_of_absence (h : bar.absence (.current metric) ≠ none) : bar.current metric = .nan := by
  obtain ⟨kind, hkind⟩ := Option.ne_none_iff_exists'.mp h
  exact (eq_of_measureAbsence hkind).1

theorem crossed_nan (above : Bool) : bar.crossed above .nan = .ok false := by
  have hclose := SignalBar.nan_incomparable bar.close
  unfold SignalBar.crossed
  cases above with
  | true =>
    rw [if_pos rfl, decide_eq_false hclose.1]
    rfl
  | false =>
    rw [if_neg Bool.false_ne_true, decide_eq_false hclose.2.1]
    rfl

/-- A flag whose level is missing does not hold. -/
theorem flag_of_missing (hready : bar.hist.closes ≠ [])
    (h : ∃ expr ∈ flagReads name, bar.absence expr ≠ none) : bar.flag name = .ok false := by
  obtain ⟨expr, hmem, hmissing⟩ := h
  unfold flagReads at hmem
  unfold SignalBar.flag
  split_ifs at hmem ⊢ with hhigh hhigh20 hband hcross hsma
  · cases hmem
  · cases hmem
  · obtain rfl := List.mem_singleton.mp hmem
    rw [eq_nan_of_absence hmissing]
    cases hlast : lastN 5 bar.hist.closes with
    | nil =>
      rw [lastN, List.drop_eq_nil_iff] at hlast
      have hlen := List.length_pos_iff.mpr hready
      omega
    | cons x xs =>
      have hlow := SignalBar.nan_incomparable (xs.foldl pyMin x)
      change (Except.ok (decide (xs.foldl pyMin x ≤ Flt.nan)) : Eval Bool) = _
      rw [decide_eq_false hlow.2.2.2]
  · obtain rfl := List.mem_singleton.mp hmem
    rw [eq_nan_of_absence hmissing, crossed_nan]
  · obtain rfl := List.mem_singleton.mp hmem
    rw [eq_nan_of_absence hmissing, crossed_nan]
  · obtain rfl := List.mem_singleton.mp hmem
    rw [eq_nan_of_absence hmissing, crossed_nan]

/-- A level that is missing fails either reading of the flag. -/
theorem levels_of_missing (hoperator : operator ≠ .ne)
    (h : ∃ expr ∈ [SeriesExpr.current left, .current right], bar.absence expr ≠ none) :
    bar.test (.levels left operator right) ≠ .ok true := by
  intro htest
  rw [SignalBar.test, Except.ok.injEq, Reading.compare_iff] at htest
  simp only [List.mem_cons, List.not_mem_nil, or_false, exists_eq_or_imp, exists_eq_left] at h
  rcases h with hmissing | hmissing
  · rw [eq_nan_of_absence hmissing] at htest
    exact hoperator htest
  · rw [eq_nan_of_absence hmissing] at htest
    cases hleft : bar.current left with
    | num x =>
      rw [hleft] at htest
      exact hoperator htest
    | nan =>
      rw [hleft] at htest
      exact hoperator htest

theorem streak_of_missing (h : bar.absence (.filed (metric ++ "_up_streak")) ≠ none) :
    bar.test (.streak metric count) ≠ .ok true := by
  obtain ⟨kind, hkind⟩ := Option.ne_none_iff_exists'.mp h
  intro htest
  rw [SignalBar.test, Except.ok.injEq, cellAbsence_fin hkind, Reading.compare_iff] at htest
  cases kind with
  | unfiled =>
    change ConditionOperator.gte.passes .below (.at (PyFloat.ofInt count)) at htest
    simp [ConditionOperator.passes] at htest
  | unmeasured => cases htest
  | empty => exact cellAbsence_ne_empty _ hkind

theorem number_eq_ok {x y : Flt Binary64} (h : SignalBar.number x = .ok y) : x = y ∧ x ≠ .nan := by
  cases x with
  | nan => cases h
  | num x =>
    cases h
    exact ⟨rfl, nofun⟩

/-- A band holds of what is missing where it lies around the zero of an empty ratio. -/
theorem between_of_missing (h : bar.absence expr = some kind) :
    bar.test (.between low expr high) = .ok true ↔
      bar.absence expr = some .empty ∧ low ≤ 0 ∧ 0 ≤ high := by
  have hnan := SignalBar.nan_incomparable
  rw [SignalBar.test, SignalBar.series_of_absence h, h, Option.some.injEq]
  cases low with
  | nan => exact iff_of_false (by rintro ⟨⟩) fun hband => (hnan 0).2.2.1 hband.2.1
  | num low =>
    change SignalBar.both (Reading.le (.value (.num low)) kind.reading) _ = .ok true ↔ _
    cases kind with
    | unfiled => exact iff_of_false (by rintro ⟨⟩) (by rintro ⟨⟨⟩, -⟩)
    | unmeasured => exact iff_of_false (by rintro ⟨⟩) (by rintro ⟨⟨⟩, -⟩)
    | empty =>
      rw [and_iff_right rfl]
      change SignalBar.both (decide (Flt.num low ≤ 0)) _ = .ok true ↔ _
      by_cases hlow : Flt.num low ≤ (0 : Flt Binary64)
      · rw [decide_eq_true hlow, and_iff_right hlow]
        cases high with
        | nan => exact iff_of_false (by rintro ⟨⟩) (hnan 0).2.2.2
        | num high =>
          change (Except.ok (decide ((0 : Flt Binary64) ≤ .num high)) : Eval Bool) = .ok true ↔ _
          rw [Except.ok.injEq, decide_eq_true_iff]
      · rw [decide_eq_false hlow]
        exact iff_of_false (by rintro ⟨⟩) fun hband => hlow hband.1

theorem compare_iff_fooled (left : ValueExpr (Flt Binary64)) (operator : ConditionOperator) (right : ValueExpr (Flt Binary64)) :
    bar.test (.compare left operator right) = .ok true ↔ bar.Fooled (.compare left operator right) := by
  change _ ↔ ∃ x ∈ bar.standing left, ∃ y ∈ bar.standing right, operator.passes x y
  rw [SignalBar.test, bar.standing_eq, bar.standing_eq]
  cases bar.value left with
  | error stop =>
    refine iff_of_false (by rintro ⟨⟩) ?_
    rintro ⟨x, hx, -⟩
    cases hx
  | ok x =>
    cases bar.value right with
    | error stop =>
      refine iff_of_false (by rintro ⟨⟩) ?_
      rintro ⟨x, -, y, hy, -⟩
      cases hy
    | ok y =>
      change (Except.ok (x.compare operator y) : Eval Bool) = .ok true ↔ _
      rw [Except.ok.injEq, Reading.compare_iff]
      constructor
      · exact fun hp => ⟨_, rfl, _, rfl, hp⟩
      · rintro ⟨_, hx, _, hy, hp⟩
        cases hx
        cases hy
        exact hp

/-- The metrics without a value of the bar before. -/
theorem previousSeriesValue_missing (h : canonicalMetric metric ∈ financialMetrics ++ derivedMetrics) :
    previousSeriesValue metric = .missing := by
  have htable : ∀ m ∈ financialMetrics ++ derivedMetrics,
      m ∉ historyMetrics ∧ movingAverageSpec m = none := by decide +kernel
  obtain ⟨hhistory, haverage⟩ := htable _ h
  unfold previousSeriesValue
  dsimp only
  rw [if_neg hhistory, haverage]

theorem two_le_movingAverage (h : movingAverageSpec name = some (kind, window)) : 2 ≤ window := by
  unfold movingAverageSpec at h
  simp only [Option.bind_eq_bind, Option.bind_eq_some_iff] at h
  obtain ⟨spec, -, h⟩ := h
  split at h
  · rename_i hbounds
    cases h
    exact hbounds.1
  · cases h

theorem listAbsence_lastN {values : List (Flt Binary64)} (hn : 0 < n) (hvalues : values ≠ []) :
    listAbsence (lastN n values) = none := by
  have hlen := List.length_pos_iff.mpr hvalues
  rw [listAbsence, if_neg]
  rw [lastN, List.drop_eq_nil_iff]
  omega

theorem ne_unmeasured (h : bar.series expr = .ok now) (hnow : now ≠ .value .nan) :
    bar.absence expr ≠ some .unmeasured := by
  intro habsence
  rw [SignalBar.series_of_absence habsence] at h
  cases h
  exact hnow rfl

/-- A measure that is there is not missing. -/
theorem measureAbsence_eq_none (h : measureAbsence x ≠ some .unmeasured) : measureAbsence x = none := by
  cases x with
  | num x => rfl
  | nan => exact absurd rfl h

/-- A bar before that stands somewhere misses nothing. -/
theorem previous_present (hready : bar.hist.closes ≠ [])
    (h : bar.series (previousSeriesValue metric) = .ok before) (hbefore : before ≠ .value .nan) :
    bar.absence (previousSeriesValue metric) = none := by
  have hmeasured := ne_unmeasured h hbefore
  unfold previousSeriesValue at hmeasured ⊢
  dsimp only at hmeasured ⊢
  split_ifs at hmeasured ⊢
  · rfl
  · split at hmeasured
    · rename_i window haverage
      exact listAbsence_lastN (by have := two_le_movingAverage haverage; omega) hready
    · exact absurd rfl hmeasured

/-- An operand that stands somewhere on the bar and on the bar before misses nothing on the bar. -/
theorem series_present (hwindow : ∀ n ∈ window, 0 < n)
    (h : seriesValue metric window aggregate = some expr)
    (hseries : bar.series expr = .ok now) (hnow : now ≠ .value .nan)
    (hprevious : bar.series (previousSeriesValue metric) = .ok before) (hbefore : before ≠ .value .nan) :
    bar.absence expr = none := by
  have hmeasured := ne_unmeasured hseries hnow
  have hkept : canonicalMetric metric ∉ financialMetrics ++ derivedMetrics := by
    intro hmem
    rw [previousSeriesValue_missing hmem] at hprevious
    cases hprevious
    exact hbefore rfl
  unfold previousSeriesValue at hprevious
  unfold seriesValue at h
  dsimp only at h hprevious
  generalize canonicalMetric metric = name at h hkept hprevious
  split at h
  · rename_i window aggregate
    split_ifs at h with hhistory
    have hlist : bar.history name ≠ [] := by
      intro hnil
      rw [if_pos hhistory, SignalBar.series, hnil] at hprevious
      cases hprevious
    have hvalues := listAbsence_lastN (hwindow window rfl) hlist
    cases aggregate <;> cases h <;> first | rfl | exact hvalues
  · split_ifs at h with hfiled hderived hunbound hcurrent
    · exact absurd (List.mem_append_left _ hfiled) hkept
    · exact absurd (List.mem_append_right _ hderived) hkept
    · cases h
      rfl
    · cases h
      exact measureAbsence_eq_none hmeasured
    · obtain ⟨⟨kind, window⟩, -, rfl⟩ := Option.map_eq_some_iff.mp h
      cases kind with
      | sma => rfl
      | ema => exact measureAbsence_eq_none hmeasured

theorem reads_scale (factor : Option (Flt Binary64)) (expr : SeriesExpr) :
    (ValueExpr.scale factor (.series expr)).reads = [expr] := by
  cases factor <;> rfl

theorem series_of_scale (h : bar.value (ValueExpr.scale factor (.series expr)) = .ok value)
    (hvalue : value ≠ .value .nan) : ∃ reading, bar.series expr = .ok reading ∧ reading ≠ .value .nan := by
  cases factor with
  | none => exact ⟨value, h, hvalue⟩
  | some factor =>
    rw [ValueExpr.scale, SignalBar.value, SignalBar.value] at h
    cases hseries : bar.series expr with
    | error stop =>
      rw [hseries] at h
      cases h
    | ok reading =>
      refine ⟨reading, rfl, ?_⟩
      rintro rfl
      rw [hseries] at h
      cases factor with
      | nan => cases h
      | num factor =>
        cases h
        exact hvalue rfl

theorem ne_nan_of_passes {operator : ConditionOperator} {x y : Reading (Flt Binary64)} (hoperator : operator ≠ .ne)
    (h : operator.passes x.standing y.standing) : x ≠ .value .nan ∧ y ≠ .value .nan := by
  constructor
  · rintro rfl
    exact hoperator h
  · rintro rfl
    rcases x with (x | _) | (_ | _) <;> exact hoperator h

/-- A cross that holds has read four numbers or infinities. -/
theorem cross_reads {left right previousLeft previousRight : ValueExpr (Flt Binary64)}
    (h : bar.test (.cross above left right previousLeft previousRight) = .ok true) :
    ∃ x y x' y', bar.value left = .ok x ∧ bar.value right = .ok y ∧ bar.value previousLeft = .ok x' ∧
      bar.value previousRight = .ok y' ∧ (x ≠ .value .nan ∧ y ≠ .value .nan) ∧
      x' ≠ .value .nan ∧ y' ≠ .value .nan := by
  obtain ⟨x, hx, h⟩ := bind_eq_ok.mp h
  obtain ⟨y, hy, h⟩ := bind_eq_ok.mp h
  obtain ⟨hnow, h⟩ := both_eq_true.mp h
  obtain ⟨x', hx', h⟩ := bind_eq_ok.mp h
  obtain ⟨y', hy', h⟩ := bind_eq_ok.mp h
  have hbefore := Except.ok.inj h
  have hlt : ConditionOperator.lt ≠ .ne := nofun
  have hlte : ConditionOperator.lte ≠ .ne := nofun
  refine ⟨x, y, x', y', hx, hy, hx', hy', ?_⟩
  cases above with
  | true =>
    exact ⟨(ne_nan_of_passes hlt ((y.lt_iff x).mp hnow)).symm,
      ne_nan_of_passes hlte ((x'.le_iff y').mp hbefore)⟩
  | false =>
    exact ⟨ne_nan_of_passes hlt ((x.lt_iff y).mp hnow),
      (ne_nan_of_passes hlte ((y'.le_iff x').mp hbefore)).symm⟩

/-- A cross never holds of what is missing, now or on the bar before. -/
theorem cross_of_missing (hready : bar.hist.closes ≠ []) {condition : Condition (Flt Binary64)}
    (h : compileCross condition = some (.cross above left right previousLeft previousRight))
    (hmissing : bar.Misses (.cross above left right previousLeft previousRight)) :
    bar.test (.cross above left right previousLeft previousRight) ≠ .ok true := by
  intro htest
  unfold compileCross at h
  cases hright : condition.right with
  | number x =>
    rw [hright] at h
    cases h
  | band values =>
    rw [hright] at h
    cases h
  | metric metric =>
    rw [hright] at h
    simp only [Option.bind_eq_bind, Option.bind_eq_some_iff, Option.pure_def, Option.some.injEq,
      TestExpr.cross.injEq] at h
    obtain ⟨exprL, hexprL, exprR, hexprR, -, rfl, rfl, rfl, rfl⟩ := h
    have hnone : ∀ n ∈ (none : Option ℕ), 0 < n := forall_of_eq_none rfl
    obtain ⟨left, right, before, before', hleft, hvalue, hprevious, hprevious', ⟨hl, hr⟩, hb, hb'⟩ :=
      cross_reads htest
    have hleft : bar.series exprL = .ok left := hleft
    have hprevious : bar.series (previousSeriesValue condition.left) = .ok before := hprevious
    obtain ⟨right', hseries, hr'⟩ := series_of_scale hvalue hr
    obtain ⟨before'', hseries', hb''⟩ := series_of_scale hprevious' hb'
    obtain ⟨expr, hmem, habsent⟩ := hmissing
    rw [TestExpr.reads, reads_scale, reads_scale] at hmem
    simp only [ValueExpr.reads, List.cons_append, List.nil_append, List.mem_cons, List.not_mem_nil,
      or_false] at hmem
    rcases hmem with hexpr | hexpr | hexpr | hexpr
    · rw [hexpr] at habsent
      exact habsent (series_present hnone hexprL hleft hl hprevious hb)
    · rw [hexpr] at habsent
      exact habsent (series_present condition.window_pos hexprR hseries hr' hseries' hb'')
    · rw [hexpr] at habsent
      exact habsent (previous_present hready hprevious hb)
    · rw [hexpr] at habsent
      exact habsent (previous_present hready hseries' hb'')

/-- On a bar where something is missing, a compiled test holds just if it is fooled. -/
theorem test_of_missing (hready : bar.hist.closes ≠ []) {condition : Condition (Flt Binary64)}
    (h : compileOne condition = some test) (hmissing : bar.Misses test) :
    bar.test test = .ok true ↔ bar.Fooled test := by
  have hshape := compileOne_shape h
  cases test with
  | flag name asserted =>
    rw [SignalBar.test, flag_of_missing hready hmissing]
    change Except.ok (false == asserted) = Except.ok true ↔ asserted = false
    cases asserted <;> simp
  | levels left operator right => exact iff_of_false (levels_of_missing hshape hmissing) id
  | streak metric count =>
    obtain ⟨expr, hmem, habsent⟩ := hmissing
    rw [List.mem_singleton.mp hmem] at habsent
    exact iff_of_false (streak_of_missing habsent) id
  | between low expr high =>
    obtain ⟨expr', hmem, habsent⟩ := hmissing
    rw [List.mem_singleton.mp hmem] at habsent
    obtain ⟨kind, hkind⟩ := Option.ne_none_iff_exists'.mp habsent
    exact between_of_missing hkind
  | compare left operator right => exact compare_iff_fooled left operator right
  | cross above left right previousLeft previousRight =>
    exact iff_of_false (cross_of_missing hready hshape hmissing) id

end Tests

section Stored
variable {F : Type} [NumPy F]

/-- A number a condition reads from the store's arrays is not there: at the bar, or for a cross at the
bar before of its ticker. -/
def ConditionArrays.Missing (condition : Condition F) (previous : Option ℕ) (index : ℕ) :
    ConditionArrays F → Prop
  | .unread => False
  | .flag _ _ left right | .window _ _ left right =>
    finiteAt left index = none ∨ finiteAt right index = none
  | .sides left right =>
    finiteAt left index = none ∨ (condition.operator ≠ .between ∧ right.at index = none) ∨
      ((condition.operator = .crossAbove ∨ condition.operator = .crossBelow) ∧
        ∀ before ∈ previous, finiteAt left before = none ∨ right.at before = none)

/-- A cross without both operands on the bar before is none. -/
theorem sidesMatch_cross {condition : Condition F}
    (hcross : condition.operator = .crossAbove ∨ condition.operator = .crossBelow)
    (hmiss : ∀ pair : F × F, before ≠ some (some pair.1, some pair.2)) (value : F) (other : Option F) :
    sidesMatch condition (some value, other) before = false := by
  unfold sidesMatch
  cases other with
  | none => rcases hcross with hop | hop <;> rw [hop]
  | some other =>
    rcases hcross with hop | hop
    · rw [hop]
      dsimp only
      split
      · exact absurd rfl (hmiss (_, _))
      · rfl
    · rw [hop]
      dsimp only
      split
      · exact absurd rfl (hmiss (_, _))
      · rfl

/-- The store never matches where a number is missing. -/
theorem ConditionArrays.test_of_missing {condition : Condition F} {arrays : ConditionArrays F}
    (h : arrays.Missing condition previous index) : arrays.test condition previous index = false := by
  cases arrays with
  | unread => exact h.elim
  | flag asserted comparison left right =>
    rw [ConditionArrays.test]
    rcases h with hleft | hright
    · rw [hleft]
    · rw [hright]
      cases finiteAt left index <;> rfl
  | window asserted rule close extreme =>
    rw [ConditionArrays.test]
    rcases h with hclose | hextreme
    · rw [hclose]
    · rw [hextreme]
      cases finiteAt close index <;> rfl
  | sides left right =>
    rw [ConditionArrays.test, comparisonValues]
    cases hleft : finiteAt left index with
    | none => rfl
    | some value =>
      rcases h with hnone | ⟨hoperator, hright⟩ | ⟨hcross, hbefore⟩
      · rw [hleft] at hnone
        cases hnone
      · rw [hright]
        unfold sidesMatch
        cases hop : condition.operator with
        | between => exact absurd hop hoperator
        | _ => rfl
      · have hmiss : ∀ pair : F × F, previous.map (comparisonValues condition left right) ≠
            some (some pair.1, some pair.2) := by
          intro pair hpair
          obtain ⟨before, hprevious, hvalues⟩ := Option.map_eq_some_iff.mp hpair
          rw [comparisonValues, Prod.mk.injEq] at hvalues
          rcases hbefore before hprevious with hnone | hnone
          · rw [hnone] at hvalues
            cases hvalues.1
          · rw [hnone] at hvalues
            cases hvalues.2
        exact sidesMatch_cross hcross hmiss value _

namespace PreparedFeatureStore
variable (S : PreparedFeatureStore F)

/-- The condition lacks a number at a bar of the store. -/
def Misses (caches : FeatureCaches F) (condition : Condition F) (index : ℕ) : Prop :=
  ∃ arrays caches', (S.conditionArrays condition).exec caches = (.ok arrays, caches') ∧
    arrays.Missing condition ((S.previousIndex[index]?).getD none) index

omit [NumPy F] in
theorem mem_tickerPlaces (hcount : 0 < count) (index : ℕ) :
    index ∈ lastN count (S.tickerPlaces index) := by
  have hself : S.tickerPlaces index = (List.range index).filter
      (fun i => decide (S.tickers[i]? = S.tickers[index]?)) ++ [index] := by
    rw [tickerPlaces, List.range_succ, List.filter_append]
    simp
  generalize (List.range index).filter (fun i => decide (S.tickers[i]? = S.tickers[index]?)) = front
    at hself
  have hdrop : front.length + 1 - count - front.length = 0 := by omega
  rw [hself, lastN, List.length_append, List.length_singleton, List.drop_append, hdrop, List.drop_zero]
  exact List.mem_append_right _ (List.mem_singleton_self index)

variable {S}

theorem conditionMatches_of_missing {condition : DescribedCondition F} {caches : FeatureCaches F}
    (hkept : caches.condition.get? condition.dumpJson = none)
    (h : S.Misses caches condition.toCondition index) :
    ((S.conditionMatches condition index).exec caches).1 ≠ .ok true := by
  obtain ⟨arrays, caches', hexec, hmissing⟩ := h
  have htest := ConditionArrays.test_of_missing hmissing
  unfold conditionMatches
  cases hconsecutive : condition.consecutive with
  | none =>
    dsimp only
    unfold baseConditionMatches
    rw [StateE.exec_bind_ok hexec, StateE.exec_pure, htest]
    exact nofun
  | some count =>
    dsimp only
    rw [StateE.exec_get_bind, hkept]
    dsimp only
    rw [StateE.exec_bind_ok hexec, StateE.exec_modify_bind, StateE.exec_pure]
    intro hmatch
    have hmatch := Except.ok.inj hmatch
    have hcount := condition.consecutive_pos count hconsecutive
    by_cases hi : index < S.size
    · rw [streakMatches_getElem? _ hcount _ hi, Option.getD_some, decide_eq_true_iff] at hmatch
      have hself := hmatch.2 index (S.mem_tickerPlaces hcount index)
      rw [htest] at hself
      cases hself
    · have hlength : (S.streakMatches condition.toCondition count arrays).length = S.size := by
        simp [streakMatches, tickers, size]
      rw [List.getElem?_eq_none (by omega)] at hmatch
      cases hmatch

end PreparedFeatureStore

end Stored

/-- Neither evaluator finds the condition true of a bar on which something it reads is missing. -/
structure NeverMatches (condition : DescribedCondition (Flt Binary64)) (test : TestExpr (Flt Binary64))
    (bar : SignalBar (Flt Binary64)) (S : PreparedFeatureStore (Flt Binary64))
    (caches : FeatureCaches (Flt Binary64)) (index : ℕ) : Prop where
  rendered : bar.Misses test → bar.test test ≠ .ok true
  stored : S.Misses caches condition.toCondition index →
    ((S.conditionMatches condition index).exec caches).1 ≠ .ok true

/-- `left < number` -/
def belowNumber (left : String) (hleft : left ≠ "") (number : ℕ) : DescribedCondition (Flt Binary64) where
  left := left
  operator := .lt
  right := .number (lit number)
  window := none
  aggregate := none
  scale := none
  consecutive := none
  universeRankPct := none
  description := none
  left_ne := hleft
  right_shape := trivial
  window_pos := pos_of_none
  consecutive_pos := pos_of_none
  rank_pos := soldTwice_unranked

/-- A bar behind one other, with nothing on its row. -/
def bareBar : SignalBar (Flt Binary64) := ⟨Dict.empty, 1, 1, 1, 1, 1, ⟨[1], [1], [1], [1], [1]⟩⟩

/-- Two sessions of a stock that has filed nothing. -/
def unfiledRows : List (Row (Flt Binary64)) :=
  ["2024-01-02", "2024-01-03"].map fun day =>
    ((Dict.empty.insert "date" (.text day)).insert "ticker" (.text "005930")).insert "close" (.number 1)

end QuantAgent.Features
