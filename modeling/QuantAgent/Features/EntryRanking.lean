import QuantAgent.Features.EntryScore
import QuantAgent.Features.Consecutive
import QuantAgent.Features.Transparency
import QuantAgent.Lib.ExactFloat
import QuantAgent.Lib.PyExcept

namespace QuantAgent.Features
set_option autoImplicit true

section Least
variable {α : Type} [LinearOrder α]

/-- The least of some numbers, or `start` if there are none. -/
def leastOr (start : α) : List α → α
  | [] => start
  | x :: xs => xs.foldl min x

theorem isLeast_leastOr (start : α) {l : List α} (h : l ≠ []) : IsLeast {a | a ∈ l} (leastOr start l) := by
  cases l with
  | nil => exact absurd rfl h
  | cons x xs => exact isLeast_foldl_min x xs

theorem leastOr_congr {start : α} {l l' : List α} (h : ∀ a, a ∈ l ↔ a ∈ l') :
    leastOr start l = leastOr start l' := by
  by_cases hl : l = []
  · have hl' : l' = [] := by
      rw [List.eq_nil_iff_forall_not_mem]
      intro a ha
      rw [← h, hl] at ha
      cases ha
    rw [hl, hl']
  · have hl' : l' ≠ [] := by
      intro hnil
      apply hl
      rw [List.eq_nil_iff_forall_not_mem]
      intro a ha
      rw [h, hnil] at ha
      cases ha
    have hset : {a | a ∈ l} = {a | a ∈ l'} := Set.ext h
    have hleast := isLeast_leastOr start hl
    rw [hset] at hleast
    exact hleast.unique (isLeast_leastOr start hl')

end Least

/-- A score the rendered code keeps: what lies outside the band counts as none. -/
def inBand (score : ℚ) : ℚ := if |score| < 10 ^ 18 then score else 0

/-- Where only one evaluator measures some of the distances: `shared` are those of both, `extra` those of
the other alone. Nothing is below the least shared distance; or there is none, or one outside the band,
and zero is the least of the extra ones. -/
def MarginsAgree (shared extra : List ℚ) : Prop :=
  (shared = [] ∧ (extra = [] ∨ IsLeast {e | e ∈ extra} 0)) ∨
    ∃ m, IsLeast {d | d ∈ shared} m ∧
      ((|m| < 10 ^ 18 ∧ ∀ e ∈ extra, m ≤ e) ∨ (10 ^ 18 ≤ m ∧ IsLeast {e | e ∈ extra} 0))

theorem leastOr_append (shared : List ℚ) (h : IsLeast {d | d ∈ shared} m) (extra : List ℚ) :
    IsLeast {a | a ∈ shared ++ extra} (leastOr 0 (shared ++ extra)) := by
  apply isLeast_leastOr
  intro hnil
  rw [List.append_eq_nil_iff] at hnil
  rw [hnil.1] at h
  cases h.1

/-- The two scores are one exactly where the margins agree. -/
theorem inBand_leastOr_iff (shared extra : List ℚ) :
    inBand (leastOr 0 shared) = leastOr 0 (shared ++ extra) ↔ MarginsAgree shared extra := by
  by_cases hshared : shared = []
  · subst hshared
    have hzero : inBand (leastOr 0 []) = 0 := if_pos (by simp [leastOr])
    have hnone : ¬ ∃ m, IsLeast {d : ℚ | d ∈ ([] : List ℚ)} m ∧
        ((|m| < 10 ^ 18 ∧ ∀ e ∈ extra, m ≤ e) ∨ (10 ^ 18 ≤ m ∧ IsLeast {e | e ∈ extra} 0)) := by
      rintro ⟨m, hm, -⟩
      cases hm.1
    rw [hzero, List.nil_append, MarginsAgree, or_iff_left hnone, and_iff_right rfl]
    by_cases hextra : extra = []
    · simp [hextra, leastOr]
    · rw [or_iff_right hextra]
      have hleast := isLeast_leastOr 0 hextra
      exact ⟨fun h => h ▸ hleast, fun h => h.unique hleast⟩
  · have hm := isLeast_leastOr 0 hshared
    have hall := leastOr_append shared hm extra
    generalize leastOr 0 shared = m at hm ⊢
    generalize leastOr 0 (shared ++ extra) = s at hall ⊢
    have hmem : m ∈ shared ++ extra := List.mem_append_left _ hm.1
    constructor
    · intro heq
      refine .inr ⟨m, hm, ?_⟩
      unfold inBand at heq
      by_cases hband : |m| < 10 ^ 18
      · rw [if_pos hband] at heq
        refine .inl ⟨hband, fun e he => ?_⟩
        rw [heq]
        exact hall.2 (List.mem_append_right _ he)
      · rw [if_neg hband] at heq
        subst heq
        have hnonneg : 0 ≤ m := hall.2 hmem
        rw [abs_of_nonneg hnonneg, not_lt] at hband
        refine .inr ⟨hband, ?_, fun e he => hall.2 (List.mem_append_right _ he)⟩
        have hzero : (0 : ℚ) ∉ shared := by
          intro hin
          have hle := hm.2 hin
          linarith [show (0 : ℚ) < 10 ^ 18 by norm_num]
        exact (List.mem_append.mp hall.1).resolve_left hzero
    · rintro (⟨hnil, -⟩ | ⟨m', hm', hcase⟩)
      · exact absurd hnil hshared
      · obtain rfl := hm'.unique hm
        rcases hcase with ⟨hband, hextra⟩ | ⟨hband, hextra⟩
        · have hleast : IsLeast {a | a ∈ shared ++ extra} m' := by
            refine ⟨hmem, fun a ha => ?_⟩
            rcases List.mem_append.mp ha with ha | ha
            · exact hm.2 ha
            · exact hextra a ha
          rw [inBand, if_pos hband]
          exact hleast.unique hall
        · have hnonneg : 0 ≤ m' := le_trans (by norm_num) hband
          have hleast : IsLeast {a | a ∈ shared ++ extra} 0 := by
            refine ⟨List.mem_append_right _ hextra.1, fun a ha => ?_⟩
            rcases List.mem_append.mp ha with ha | ha
            · exact hnonneg.trans (hm.2 ha)
            · exact hextra.2 ha
          rw [inBand, if_neg (by rw [abs_of_nonneg hnonneg]; exact not_lt.mpr hband)]
          exact hleast.unique hall

/-- `MARGIN_SIGN` as a number. -/
def ConditionOperator.sign : ConditionOperator → ℚ
  | .lt | .lte | .crossBelow => -1
  | _ => 1

/-- How far `x` is past `y`, in units of `y`. -/
def distance (operator : ConditionOperator) (sides : ℚ × ℚ) : ℚ :=
  operator.sign * (sides.1 - sides.2) / max |sides.2| (1 / 10 ^ 9)

section Margins
variable [PySqrt ℚ]

theorem marginSign_eq {operator : ConditionOperator} {sign : Flt ℚ} (h : marginSign operator = some sign) :
    sign = .num operator.sign := by
  cases operator <;> cases h <;> rfl

theorem abs_num (y : ℚ) : NumPy.abs (Flt.num y) = .num |y| := by
  change Flt.num (if y < 0 then -y else y) = _
  congr 1
  by_cases h : y < 0
  · rw [if_pos h, abs_of_neg h]
  · rw [if_neg h, abs_of_nonneg (not_lt.mp h)]

theorem marginEpsilon_eq : (marginEpsilon : Flt ℚ) = .num (1 / 10 ^ 9) := by
  have hpow : ((10 ^ 9 : ℕ) : ℚ) ≠ 0 := by norm_num
  change (Flt.num ((1 : ℕ) : ℚ) / Flt.num ((10 ^ 9 : ℕ) : ℚ) : Flt ℚ) = _
  rw [num_div _ hpow]
  norm_num

omit [PySqrt ℚ] in
theorem unit_pos (y : ℚ) : 0 < max |y| (1 / 10 ^ 9) := lt_max_of_lt_right (by norm_num)

theorem distance_num (operator : ConditionOperator) (x y : ℚ) :
    (Flt.num operator.sign * (Flt.num x - Flt.num y) / pyMax (NumPy.abs (Flt.num y)) marginEpsilon : Flt ℚ) =
      .num (distance operator (x, y)) := by
  rw [abs_num, marginEpsilon_eq, pyMax_num]
  exact num_div _ (unit_pos y).ne'

theorem foldl_pyMin_num (x : ℚ) (xs : List ℚ) :
    (xs.map Flt.num).foldl pyMin (.num x) = .num (xs.foldl min x) := by
  induction xs generalizing x with
  | nil => rfl
  | cons y xs ih => rw [List.map_cons, List.foldl_cons, pyMin_num, ih, List.foldl_cons]

theorem readingMin_num (x y : ℚ) :
    Reading.min (.value (.num x)) (.value (.num y)) = .value (Flt.num (min x y)) := by
  rw [← pyMin_num, Reading.min, Reading.lt, pyMin]
  by_cases h : Flt.num y < Flt.num x <;> simp [h]

theorem readingMax_num (x y : ℚ) :
    Reading.max (.value (.num x)) (.value (.num y)) = .value (Flt.num (max x y)) := by
  rw [← pyMax_num, Reading.max, Reading.lt, pyMax]
  by_cases h : Flt.num x < Flt.num y <;> simp [h]

theorem foldl_readingMin_num (x : ℚ) (xs : List ℚ) :
    (xs.map fun x => Reading.value (Flt.num x)).foldl Reading.min (.value (.num x)) =
      .value (.num (xs.foldl min x)) := by
  induction xs generalizing x with
  | nil => rfl
  | cons y xs ih => rw [List.map_cons, List.foldl_cons, readingMin_num, ih, List.foldl_cons]

theorem strength_num (x : ℚ) : (Reading.value (Flt.num x)).strength = .num (inBand x) := by
  have hband : (-(lit (10 ^ 18)) < Flt.num x ∧ Flt.num x < lit (10 ^ 18)) ↔ |x| < 10 ^ 18 := by
    change (-((10 ^ 18 : ℕ) : ℚ) < x ∧ x < ((10 ^ 18 : ℕ) : ℚ)) ↔ _
    rw [abs_lt]
    norm_num
  rw [Reading.strength, inBand]
  simp only [hband]
  exact (apply_ite Flt.num _ _ _).symm

end Margins

section Rule
variable {F : Type} [NumPy F]

/-- A raw level held against a number. -/
def levelTest (condition : Condition F) : Bool :=
  match condition.right with
  | .metric _ => false
  | _ => decide (canonicalMetric condition.left ∈ levelMetrics)

/-- A condition whose distance the store measures. -/
def measured (condition : Condition F) : Bool :=
  (marginSign (F := F) condition.operator).isSome && (booleanComparison condition.left).isNone &&
    (booleanWindowRule (F := F) condition.left).isNone && !levelTest condition

/-- A condition the compiler does not set aside as a streak or a flag. -/
def distanced (condition : Condition F) : Bool :=
  condition.consecutive.isNone && decide (normalName condition.left ∉ booleanExpressions)

/-- A condition that is no cross-sectional cut. -/
def perStock (condition : Condition F) : Bool := condition.universeRankPct.isNone

theorem band_sign {condition : Condition F} (h : condition.right = .band values) :
    marginSign (F := F) condition.operator = none := by
  have hshape := condition.right_shape
  rw [h] at hshape
  cases hoperator : condition.operator <;> rw [hoperator] at hshape <;> first | rfl | cases hshape

/-- The compiler writes no other distances. -/
theorem marginExpression_none {condition : Condition F}
    (h : ¬ (perStock condition && measured condition && distanced condition) = true) :
    marginExpression condition = none := by
  unfold marginExpression
  cases hsign : marginSign (F := F) condition.operator with
  | none => rfl
  | some sign =>
    dsimp only
    by_cases hcut : condition.universeRankPct.isSome = true ∨ condition.consecutive.isSome = true
    · rw [if_pos hcut]
    rw [if_neg hcut]
    by_cases hflag : normalName condition.left ∈ booleanExpressions ∨
        (booleanComparison condition.left).isSome = true
    · rw [if_pos hflag]
    rw [if_neg hflag]
    rw [not_or, Bool.not_eq_true, Bool.not_eq_true, Option.isSome_eq_false_iff,
      Option.isSome_eq_false_iff] at hcut
    rw [not_or, Bool.not_eq_true, Option.isSome_eq_false_iff] at hflag
    have hwindow : booleanWindowRule (F := F) condition.left = none := booleanWindowRule_eq_none hflag.1
    have hlevel : levelTest condition = true := by
      by_contra hlevel
      apply h
      rw [Bool.not_eq_true] at hlevel
      simp [perStock, measured, distanced, hsign, hcut, hflag, hwindow, hlevel]
    unfold levelTest at hlevel
    cases hright : condition.right with
    | metric name =>
      rw [hright] at hlevel
      cases hlevel
    | band values =>
      rw [band_sign hright] at hsign
      cases hsign
    | number x =>
      rw [hright] at hlevel
      exact if_pos (of_decide_eq_true hlevel)

theorem comparisonOperands_of_cross {condition : Condition F}
    (h : (compileCross condition).isSome = true) : (comparisonOperands condition).isSome = true := by
  obtain ⟨test, h⟩ := Option.isSome_iff_exists.mp h
  unfold compileCross at h
  unfold comparisonOperands
  cases hright : condition.right with
  | number x =>
    rw [hright] at h
    cases h
  | band values =>
    rw [hright] at h
    cases h
  | metric name =>
    rw [hright] at h
    obtain ⟨left, hleft, h⟩ := Option.bind_eq_some_iff.mp h
    obtain ⟨right, hright, -⟩ := Option.bind_eq_some_iff.mp h
    dsimp only
    rw [hleft, hright]
    rfl

/-- A compiled condition that is neither a streak nor a flag has its two operands. -/
theorem comparisonOperands_isSome {condition : Condition F} (hcompiled : (compileOne condition).isSome)
    (hstock : perStock condition = true) (hmeasured : measured condition = true)
    (hdistanced : distanced condition = true) : (comparisonOperands condition).isSome = true := by
  simp only [measured, distanced, perStock, Bool.and_eq_true, decide_eq_true_eq,
    Option.isNone_iff_eq_none] at hstock hmeasured hdistanced
  have hplain : ∀ operator, ((comparisonOperands condition).bind fun operands =>
      some (TestExpr.compare operands.1 operator (ValueExpr.scale condition.scale operands.2))).isSome =
        true → (comparisonOperands condition).isSome = true := by
    intro operator h
    cases hoperands : comparisonOperands condition with
    | none =>
      rw [hoperands] at h
      cases h
    | some operands => rfl
  unfold compileOne at hcompiled
  dsimp only at hcompiled
  rw [if_neg hdistanced.2, hmeasured.1.1.2, hdistanced.1, hstock] at hcompiled
  have hsign := hmeasured.1.1.1
  cases hoperator : condition.operator <;> rw [hoperator] at hcompiled hsign
  case lt | lte | gt | gte => exact hplain _ hcompiled
  case crossAbove | crossBelow => exact comparisonOperands_of_cross hcompiled
  case eq | ne | between => cases hsign

theorem marginExpression_eq {condition : Condition F} (hcompiled : (compileOne condition).isSome)
    (hstock : perStock condition = true) (hmeasured : measured condition = true)
    (hdistanced : distanced condition = true) : ∃ sign left right,
      marginSign condition.operator = some sign ∧ comparisonOperands condition = some (left, right) ∧
      marginExpression condition = some ⟨sign, left, ValueExpr.scale condition.scale right⟩ := by
  obtain ⟨⟨left, right⟩, hoperands⟩ := Option.isSome_iff_exists.mp
    (comparisonOperands_isSome hcompiled hstock hmeasured hdistanced)
  simp only [measured, distanced, perStock, Bool.and_eq_true, decide_eq_true_eq,
    Option.isNone_iff_eq_none, Bool.not_eq_true'] at hstock hmeasured hdistanced
  obtain ⟨sign, hsign⟩ := Option.isSome_iff_exists.mp hmeasured.1.1.1
  refine ⟨sign, left, right, hsign, hoperands, ?_⟩
  have hmeasure : marginExpression.measure condition sign =
      some ⟨sign, left, ValueExpr.scale condition.scale right⟩ := by
    rw [marginExpression.measure, hoperands]
    rfl
  unfold marginExpression
  rw [hsign]
  dsimp only
  rw [if_neg (by simp [hstock, hdistanced.1]), if_neg (by simp [hdistanced.2, hmeasured.1.1.2]), hmeasure]
  have hlevel := hmeasured.2
  unfold levelTest at hlevel
  cases hright : condition.right with
  | metric name => rfl
  | band values => rfl
  | number x =>
    rw [hright] at hlevel
    exact if_neg (of_decide_eq_false hlevel)

end Rule

section Presence
variable [PySqrt ℚ]

/-- Two operands that are both numbers. -/
def numbers : Option (Flt ℚ) × Option (Flt ℚ) → Option (ℚ × ℚ)
  | (some (.num x), some (.num y)) => some (x, y)
  | _ => none

/-- What the bar holds for the rule: `sides` are the operands of each comparison, `figure` is the value of
each cut. From any caches in `Φ` the store reads just these, and of each condition that is neither a cut
nor a streak nor a flag both operands are there and are what the compiled expressions read. -/
structure RowValues (S : PreparedFeatureStore (Flt ℚ)) (Φ : FeatureCaches (Flt ℚ) → Prop) (index : ℕ)
    (bar : SignalBar (Flt ℚ)) (conditions : List (Condition (Flt ℚ)))
    (sides : Condition (Flt ℚ) → Option (ℚ × ℚ)) (figure : Condition (Flt ℚ) → Option ℚ) : Prop where
  stored : ∀ condition ∈ conditions, perStock condition = true → measured condition = true →
    ∃ left right, Yields Φ (S.comparisonSides condition) (.ok (left, right)) ∧
      numbers (comparisonValues condition left right index) = sides condition
  cut : ∀ condition ∈ conditions, perStock condition = false →
    Yields Φ (S.currentMetric condition.left index) (.ok ((figure condition).map .num))
  rendered : ∀ condition ∈ conditions, perStock condition = true → measured condition = true →
    distanced condition = true → ∀ left right, comparisonOperands condition = some (left, right) →
      ∃ x y, sides condition = some (x, y) ∧ bar.value left = .ok (.value (.num x)) ∧
        bar.value (ValueExpr.scale condition.scale right) = .ok (.value (.num y))

/-- The distances of some of the conditions. -/
def distances (sides : Condition (Flt ℚ) → Option (ℚ × ℚ)) (p : Condition (Flt ℚ) → Bool)
    (conditions : List (Condition (Flt ℚ))) : List ℚ :=
  (conditions.filter p).filterMap fun condition => (sides condition).map (distance condition.operator)

/-- The distances both evaluators measure. -/
def sharedDistances (sides : Condition (Flt ℚ) → Option (ℚ × ℚ)) :
    List (Condition (Flt ℚ)) → List ℚ :=
  distances sides fun condition => perStock condition && measured condition && distanced condition

/-- The distances only the store measures: those of streaks, and of crosses that a row has a column for. -/
def extraDistances (sides : Condition (Flt ℚ) → Option (ℚ × ℚ)) :
    List (Condition (Flt ℚ)) → List ℚ :=
  distances sides fun condition => perStock condition && measured condition && !distanced condition

theorem mem_distances {sides : Condition (Flt ℚ) → Option (ℚ × ℚ)} {p : Condition (Flt ℚ) → Bool}
    {conditions : List (Condition (Flt ℚ))} : d ∈ distances sides p conditions ↔
      ∃ condition ∈ conditions, p condition = true ∧
        (sides condition).map (distance condition.operator) = some d := by
  rw [distances, List.mem_filterMap]
  simp only [List.mem_filter, and_assoc]

/-- The store measures the shared and the extra distances. -/
theorem mem_measured (sides : Condition (Flt ℚ) → Option (ℚ × ℚ))
    (conditions : List (Condition (Flt ℚ))) :
    d ∈ distances sides (fun condition => perStock condition && measured condition) conditions ↔
      d ∈ sharedDistances sides conditions ++ extraDistances sides conditions := by
  rw [List.mem_append, sharedDistances, extraDistances, mem_distances, mem_distances, mem_distances,
    ← exists_or]
  apply exists_congr
  intro condition
  cases distanced condition <;> simp

section Rendered
variable {bar : SignalBar (Flt ℚ)}

theorem margin_num {left right : ValueExpr (Flt ℚ)} {operator : ConditionOperator} {sign : Flt ℚ}
    (hsign : marginSign operator = some sign) (hleft : bar.value left = .ok (.value (.num x)))
    (hright : bar.value right = .ok (.value (.num y))) :
    bar.margin ⟨sign, left, right⟩ = .ok (.value (.num (distance operator (x, y)))) := by
  have hunit := (unit_pos y).ne'
  have hdiv : ((Reading.value (Flt.num (x - y))).mul (.num operator.sign)).div
      (.value (.num (max |y| (1 / 10 ^ 9)))) = .ok (.value (.num (distance operator (x, y)))) := by
    have hzero : ((Flt.num (max |y| (1 / 10 ^ 9)) : Flt ℚ) == 0) = false := by
      change (max |y| (1 / 10 ^ 9) == (0 : ℚ)) = false
      exact beq_eq_false_iff_ne.mpr hunit
    rw [Reading.mul, Reading.div, hzero]
    change Except.ok (Reading.value (Flt.num ((x - y) * operator.sign) / Flt.num _)) = _
    rw [num_div _ hunit, mul_comm]
    rfl
  rw [SignalBar.margin, hleft, hright, marginSign_eq hsign]
  change raised (((Reading.value (Flt.num (x - y))).mul (.num operator.sign)).div
    ((Reading.value (NumPy.abs (Flt.num y))).max (.value marginEpsilon))) = _
  rw [abs_num, marginEpsilon_eq, readingMax_num, hdiv]
  rfl

theorem mapM_margin {margins : List (MarginExpr (Flt ℚ))} {ds : List ℚ}
    (h : margins.map bar.margin = ds.map fun d => .ok (.value (.num d))) :
    margins.mapM bar.margin = .ok (ds.map fun d => .value (.num d)) := by
  induction margins generalizing ds with
  | nil =>
    cases ds with
    | nil => rfl
    | cons d ds => cases h
  | cons margin margins ih =>
    cases ds with
    | nil => cases h
    | cons d ds =>
      rw [List.map_cons, List.map_cons, List.cons.injEq] at h
      rw [List.mapM_cons, h.1, ih h.2]
      rfl

theorem tightest_num {margins : List (MarginExpr (Flt ℚ))} {ds : List ℚ}
    (h : margins.map bar.margin = ds.map fun d => .ok (.value (.num d))) :
    bar.tightest margins = .ok (.value (.num (leastOr 0 ds))) := by
  cases margins with
  | nil =>
    cases ds with
    | nil => rfl
    | cons d ds => cases h
  | cons margin margins =>
    cases ds with
    | nil => cases h
    | cons d ds =>
      rw [List.map_cons, List.map_cons, List.cons.injEq] at h
      rw [SignalBar.tightest, h.1, mapM_margin h.2, leastOr, ← foldl_readingMin_num]
      rfl

/-- The compiled expression measures the shared distances. -/
theorem RowValues.margins {S : PreparedFeatureStore (Flt ℚ)} {conditions : List (Condition (Flt ℚ))}
    (h : RowValues S Φ index bar conditions sides figure)
    (hcompiled : ∀ condition ∈ conditions, perStock condition = true → (compileOne condition).isSome) :
    (compileScoreExpression conditions).map bar.margin =
      (sharedDistances sides conditions).map fun d => .ok (.value (.num d)) := by
  rw [compileScoreExpression, sharedDistances, distances, List.filterMap_filter, List.map_filterMap,
    List.map_filterMap]
  apply List.filterMap_congr
  intro condition hmem
  by_cases hp : (perStock condition && measured condition && distanced condition) = true
  · rw [if_pos hp]
    simp only [Bool.and_eq_true] at hp
    obtain ⟨⟨hstock, hmeasured⟩, hdistanced⟩ := hp
    obtain ⟨sign, left, right, hsign, hoperands, hmargin⟩ :=
      marginExpression_eq (hcompiled condition hmem hstock) hstock hmeasured hdistanced
    obtain ⟨x, y, hsides, hleft, hright⟩ :=
      h.rendered condition hmem hstock hmeasured hdistanced left right hoperands
    rw [hmargin, hsides, Option.map_some, Option.map_some, Option.map_some,
      margin_num hsign hleft hright]
  · rw [if_neg hp, marginExpression_none hp]
    rfl

theorem RowValues.entryScore {S : PreparedFeatureStore (Flt ℚ)} {conditions : List (Condition (Flt ℚ))}
    (h : RowValues S Φ index bar conditions sides figure)
    (hcompiled : ∀ condition ∈ conditions, perStock condition = true → (compileOne condition).isSome) :
    bar.entryScore (compileScoreExpression conditions) =
      .ok (.num (inBand (leastOr 0 (sharedDistances sides conditions)))) := by
  rw [SignalBar.entryScore, tightest_num (h.margins hcompiled)]
  dsimp only
  rw [strength_num]

end Rendered

section Stored
variable {S : PreparedFeatureStore (Flt ℚ)} {Φ : FeatureCaches (Flt ℚ) → Prop} {index : ℕ}

theorem conditionMargin_eq (S : PreparedFeatureStore (Flt ℚ)) (condition : Condition (Flt ℚ)) (index : ℕ) :
    S.conditionMargin condition index =
      if measured condition then
        PreparedFeatureStore.conditionMargin.measure S condition index (.num condition.operator.sign)
      else pure none := by
  unfold PreparedFeatureStore.conditionMargin
  cases hsign : marginSign (F := Flt ℚ) condition.operator with
  | none => simp [measured, hsign]
  | some sign =>
    dsimp only
    by_cases hflag : (booleanComparison condition.left).isSome = true ∨
        (booleanWindowRule (F := Flt ℚ) condition.left).isSome = true
    · have hmeasured : measured condition = false := by
        rcases hflag with hflag | hflag <;>
          simp [measured, Option.isNone_eq_false_iff.mpr hflag]
      rw [if_pos hflag, hmeasured]
      rfl
    · have hlevel : measured condition = !levelTest condition := by
        rw [not_or, Bool.not_eq_true, Bool.not_eq_true, Option.isSome_eq_false_iff,
          Option.isSome_eq_false_iff] at hflag
        simp [measured, hsign, hflag]
      rw [if_neg hflag, hlevel, marginSign_eq hsign, levelTest]
      cases condition.right with
      | metric name => rfl
      | number x =>
        dsimp only
        by_cases hmem : canonicalMetric condition.left ∈ levelMetrics <;> simp [hmem]
      | band values =>
        dsimp only
        by_cases hmem : canonicalMetric condition.left ∈ levelMetrics <;> simp [hmem]

theorem marginOf_numbers (operator : ConditionOperator) (values : Option (Flt ℚ) × Option (Flt ℚ)) :
    (match values with
      | (some left, some right) =>
        let margin := Flt.num operator.sign * (left - right) / pyMax (NumPy.abs right) marginEpsilon
        if PyFloat.isFinite margin then some margin else none
      | _ => none) = (numbers values).map fun sides => .num (distance operator sides) := by
  obtain ⟨left, right⟩ := values
  rcases left with _ | ⟨x | _⟩
  · rfl
  · rcases right with _ | ⟨y | _⟩
    · rfl
    · simp only [distance_num]
      rfl
    · rfl
  · rcases right with _ | ⟨y | _⟩ <;> rfl

theorem RowValues.conditionMargin (h : RowValues S Φ index bar conditions sides figure)
    (hmem : condition ∈ conditions) (hstock : perStock condition = true) :
    Yields Φ (S.conditionMargin condition index)
      (.ok (if measured condition then
        (sides condition).map fun sides => .num (distance condition.operator sides) else none)) := by
  rw [conditionMargin_eq]
  by_cases hmeasured : measured condition = true
  · obtain ⟨left, right, hyields, hnumbers⟩ := h.stored condition hmem hstock hmeasured
    rw [if_pos hmeasured, if_pos hmeasured, ← hnumbers]
    apply hyields.bind
    have hvalue := marginOf_numbers condition.operator (comparisonValues condition left right index)
    dsimp only
    generalize comparisonValues condition left right index = values at hvalue ⊢
    rw [← hvalue]
    obtain ⟨left, right⟩ := values
    cases left <;> cases right <;> exact .pure _
  · rw [if_neg hmeasured, if_neg hmeasured]
    exact .pure none

/-- The sign of the store's first cut. -/
def cutSign (condition : Condition (Flt ℚ)) : ℚ :=
  if condition.operator = .gt ∨ condition.operator = .gte then 1 else -1

/-- What the store ranks by before any distance: the first condition that names a share of the universe. -/
def storedCut (figure : Condition (Flt ℚ) → Option ℚ) (conditions : List (Condition (Flt ℚ))) :
    Option ℚ :=
  (conditions.filter fun condition => !perStock condition).head?.bind fun condition =>
    (figure condition).map fun value => cutSign condition * value

theorem RowValues.fallbackScore (h : RowValues S Φ index bar conditions sides figure) :
    Yields Φ (S.fallbackScore index
        (fallbackRankMetric (conditions.filter fun condition => !perStock condition)))
      (.ok ((storedCut figure conditions).map .num)) := by
  unfold fallbackRankMetric storedCut
  cases hcuts : conditions.filter fun condition => !perStock condition with
  | nil => exact .pure none
  | cons first rest =>
    have hfirst : first ∈ conditions.filter fun condition => !perStock condition := by
      rw [hcuts]
      exact List.mem_cons_self ..
    rw [List.mem_filter, Bool.not_eq_true'] at hfirst
    have hvalue := h.cut first hfirst.1 hfirst.2
    have hsign : ((if first.operator = .gt ∨ first.operator = .gte then 1 else -1) : Flt ℚ) =
        .num (cutSign first) := (apply_ite Flt.num _ 1 (-1)).symm
    rw [List.head?_cons, Option.map_some, Option.bind_some, PreparedFeatureStore.fallbackScore, hsign]
    cases hfigure : figure first with
    | none =>
      rw [hfigure] at hvalue
      exact hvalue.bind (.pure none)
    | some value =>
      rw [hfigure] at hvalue
      exact hvalue.bind (.pure _)

theorem filterMap_margins (sides : Condition (Flt ℚ) → Option (ℚ × ℚ))
    (conditions : List (DescribedCondition (Flt ℚ))) :
    (((conditions.filter fun condition => perStock condition.toCondition).map fun condition =>
      if measured condition.toCondition then (sides condition.toCondition).map
        fun sides => Flt.num (distance condition.toCondition.operator sides) else none).filterMap id) =
      (distances sides (fun condition => perStock condition && measured condition)
        (conditions.map (·.toCondition))).map Flt.num := by
  rw [distances, List.filterMap_map, List.filterMap_filter, List.filterMap_filter, List.map_filterMap,
    List.filterMap_map]
  apply List.filterMap_congr
  intro condition _
  cases hstock : perStock condition.toCondition <;> cases hmeasured : measured condition.toCondition <;>
    simp [hstock, hmeasured, Function.comp_def]

/-- The store's score, from any caches in `Φ`. -/
theorem RowValues.defaultEntryScore {conditions : List (DescribedCondition (Flt ℚ))}
    (h : RowValues S Φ index bar (conditions.map (·.toCondition)) sides figure) :
    Yields Φ (S.defaultEntryScore index
        (fallbackRankMetric ((conditions.map (·.toCondition)).filter fun condition => !perStock condition))
        (conditions.filter fun condition => perStock condition.toCondition))
      (.ok (.num ((storedCut figure (conditions.map (·.toCondition))).getD
        (leastOr 0 (sharedDistances sides (conditions.map (·.toCondition)) ++
          extraDistances sides (conditions.map (·.toCondition))))))) := by
  unfold PreparedFeatureStore.defaultEntryScore
  apply h.fallbackScore.bind
  cases storedCut figure (conditions.map (·.toCondition)) with
  | some score => exact .pure _
  | none =>
    have hmargins := Yields.mapM (Φ := Φ)
      (f := fun condition : DescribedCondition (Flt ℚ) => S.conditionMargin condition.toCondition index)
      (g := fun condition => if measured condition.toCondition then (sides condition.toCondition).map
        fun sides => .num (distance condition.toCondition.operator sides) else none)
      (l := conditions.filter fun condition => perStock condition.toCondition) fun condition hmem => by
        rw [List.mem_filter] at hmem
        exact h.conditionMargin (List.mem_map_of_mem hmem.1) hmem.2
    apply hmargins.bind
    rw [filterMap_margins, Option.getD_none, ← leastOr_congr fun d => mem_measured sides _]
    generalize distances sides (fun condition => perStock condition && measured condition) _ = ds
    cases ds with
    | nil => exact .pure _
    | cons d ds =>
      rw [leastOr, ← foldl_pyMin_num]
      exact .pure _

end Stored

end Presence

section Day
variable {F : Type} [NumPy F] {compiled : CompiledConditions F} {margins : List (MarginExpr F)}

/-- What one bar adds to the figures of a metric. -/
def scoredBar (cuts : List (RankFilter F)) (metric : String) (bar : SignalBar F) : List (String × F) :=
  (cuts.filter (·.metric = metric)).filterMap fun _ =>
    (bar.row.num metric).map fun value => (bar.row.signalTicker, value)

theorem gatherMetrics_get? (cuts : List (RankFilter F)) (metric : String) (bar : SignalBar F)
    (universeMetrics : Dict String (List (String × F))) :
    ((gatherMetrics bar.row.signalTicker bar.row cuts universeMetrics).get? metric).getD [] =
      (universeMetrics.get? metric).getD [] ++ scoredBar cuts metric bar := by
  induction cuts generalizing universeMetrics with
  | nil => exact (List.append_nil _).symm
  | cons cut cuts ih =>
    have hcons : scoredBar (cut :: cuts) metric bar =
        (if cut.metric = metric then
          ((bar.row.num metric).map fun value => (bar.row.signalTicker, value)).toList else []) ++
          scoredBar cuts metric bar := by
      unfold scoredBar
      by_cases hmetric : cut.metric = metric
      · cases bar.row.num metric <;> simp [hmetric]
      · simp [hmetric]
    rw [gatherMetrics, List.foldl_cons, ← gatherMetrics, ih, hcons, ← List.append_assoc]
    congr 1
    by_cases hmetric : cut.metric = metric
    · rw [if_pos hmetric, hmetric]
      cases bar.row.num metric with
      | none => simp
      | some value => simp
    · rw [if_neg hmetric, List.append_nil]
      cases bar.row.num cut.metric with
      | none => rfl
      | some value => rw [Dict.get?_insert, if_neg (Ne.symm hmetric)]

theorem SignalDay.add_ok {start next : SignalDay F} {bar : SignalBar F} {inPosition : Bool}
    (h : start.add compiled margins bar inPosition = .ok next) :
    next.universeMetrics =
        gatherMetrics bar.row.signalTicker bar.row compiled.rankFilters start.universeMetrics ∧
      (∀ entry ∈ start.entries, entry ∈ next.entries) ∧
      ∀ score, inPosition = false → bar.entryOk compiled = .ok true → bar.entryScore margins = .ok score →
        ⟨bar.row.signalTicker, bar.close, score⟩ ∈ next.entries := by
  unfold SignalDay.add at h
  cases hentry : bar.entryOk compiled with
  | error stop =>
    rw [hentry] at h
    cases h
  | ok entryOk =>
    rw [hentry] at h
    cases entryOk with
    | false =>
      cases h
      refine ⟨rfl, fun entry hmem => ?_, fun _ _ hok => by cases hok⟩
      simpa using hmem
    | true =>
      cases hscore : bar.entryScore margins with
      | error stop =>
        simp only [hscore, bind, Except.bind, if_true] at h
        cases h
      | ok score =>
        simp only [hscore, bind, Except.bind, if_true] at h
        cases h
        refine ⟨rfl, fun entry hmem => ?_, fun score' hfree _ heq => ?_⟩
        · cases inPosition
          · exact List.mem_append_left _ hmem
          · exact hmem
        · cases heq
          rw [hfree]
          exact List.mem_append_right _ (List.mem_singleton_self _)

/-- One pass over a session keeps what was gathered and adds what its bars give. -/
theorem foldlM_add {bars : List (SignalBar F × Bool)} {start day : SignalDay F}
    (h : bars.foldlM (fun day bar => day.add compiled margins bar.1 bar.2) start = .ok day) :
    (∀ metric, (day.universeMetrics.get? metric).getD [] = (start.universeMetrics.get? metric).getD [] ++
        bars.flatMap fun bar => scoredBar compiled.rankFilters metric bar.1) ∧
      (∀ entry ∈ start.entries, entry ∈ day.entries) ∧
      ∀ bar score, (bar, false) ∈ bars → bar.entryOk compiled = .ok true →
        bar.entryScore margins = .ok score → ⟨bar.row.signalTicker, bar.close, score⟩ ∈ day.entries := by
  induction bars generalizing start with
  | nil =>
    cases h
    exact ⟨fun metric => (List.append_nil _).symm, fun entry hentry => hentry, nofun⟩
  | cons first bars ih =>
    rw [List.foldlM_cons] at h
    cases hadd : start.add compiled margins first.1 first.2 with
    | error stop =>
      rw [hadd] at h
      cases h
    | ok next =>
      rw [hadd] at h
      obtain ⟨hmetrics, hkept, hmatched⟩ := ih h
      obtain ⟨hfirst, hkept', hmatched'⟩ := SignalDay.add_ok hadd
      refine ⟨fun metric => ?_, fun entry hmem => hkept _ (hkept' entry hmem), ?_⟩
      · rw [hmetrics, hfirst, gatherMetrics_get?, List.append_assoc, List.flatMap_cons]
      · intro bar score hmem hok hscore
        rcases List.mem_cons.mp hmem with heq | hrest
        · subst heq
          exact hkept _ (hmatched' score rfl hok hscore)
        · exact hmatched bar score hrest hok hscore

/-- The last figure that a session's rows carry for a ticker. -/
def lastFigure (bars : List (SignalBar F × Bool)) (metric ticker : String) : Option F :=
  ((bars.filter fun bar => bar.1.row.signalTicker = ticker).filterMap
    fun bar => bar.1.row.num metric).getLast?

/-- `rank_scores` holds the last figure of each ticker. -/
theorem rankScores_get? {bars : List (SignalBar F × Bool)} {day : SignalDay F}
    (h : signalDay compiled margins bars = .ok day) (hcuts : compiled.rankFilters = cut :: cuts)
    (ticker : String) :
    (rankScores day.universeMetrics compiled.rankFilters).get? ticker =
      lastFigure bars cut.metric ticker := by
  have hmetrics := (foldlM_add h).1 cut.metric
  rw [Dict.get?_empty, Option.getD_none, List.nil_append, hcuts] at hmetrics
  rw [hcuts, rankScores, Dict.get?_mapVal, Dict.get?_index, hmetrics, lastFigure]
  have hbar : ∀ bar : SignalBar F,
      ((scoredBar (cut :: cuts) cut.metric bar).filter fun e => e.1 = ticker).getLast?.map Prod.snd =
        if bar.row.signalTicker = ticker then bar.row.num cut.metric else none := by
    intro bar
    unfold scoredBar
    cases hvalue : bar.row.num cut.metric with
    | none => simp
    | some value =>
      by_cases hticker : bar.row.signalTicker = ticker
      · simp only [hticker, Option.map_some, List.filterMap_eq_map', decide_true, List.filter_cons_of_pos,
          List.map_cons, List.map_const', List.filter_replicate_of_pos, if_true, Option.map_eq_some_iff,
          Prod.exists, exists_eq_right]
        rw [← List.replicate_succ, List.getLast?_replicate]
        exact ⟨ticker, rfl⟩
      · simp [hticker]
  clear hmetrics h
  induction bars using List.reverseRecOn with
  | nil => rfl
  | append_singleton bars bar ih =>
    rw [List.flatMap_append, List.filter_append, List.getLast?_append, List.filter_append,
      List.filterMap_append, List.getLast?_append, ← ih, List.flatMap_singleton]
    rw [Option.map_or, hbar bar.1]
    congr 1
    by_cases hticker : bar.1.row.signalTicker = ticker <;> simp [hticker]

theorem Entry.ranked_ranked (sign : F) (scores : Dict String F) (entry : Entry F) :
    (entry.ranked sign scores).ranked sign scores = entry.ranked sign scores := by
  unfold Entry.ranked
  cases hscore : scores.get? entry.ticker with
  | none => simp only [hscore]
  | some value => simp only [hscore]

theorem mem_cutEntries {sign : F} {scores : Dict String F} {cuts : List (RankFilter F)}
    {universeMetrics : Dict String (List (String × F))} {entries result : List (Entry F)}
    (hnone : cuts = [] → ∀ entry ∈ entries, entry.ranked sign scores = entry)
    (h : cutEntries sign scores cuts universeMetrics entries = .ok result) :
    ∀ entry ∈ result, ∃ first ∈ entries, entry = first.ranked sign scores := by
  induction cuts generalizing universeMetrics entries with
  | nil =>
    cases h
    exact fun entry hentry => ⟨entry, hentry, (hnone rfl entry hentry).symm⟩
  | cons cut cuts ih =>
    unfold cutEntries at h
    cases hscored : (universeMetrics.get? cut.metric).getD [] with
    | nil =>
      rw [hscored] at h
      cases h
      nofun
    | cons item scored =>
      rw [hscored] at h
      obtain ⟨share, -, h⟩ := bind_eq_ok.mp h
      intro entry hentry
      obtain ⟨next, hnext, rfl⟩ := ih (fun _ next hnext => by
        obtain ⟨first, -, rfl⟩ := List.mem_map.mp hnext
        exact first.ranked_ranked sign scores) h entry hentry
      obtain ⟨first, hfirst, rfl⟩ := List.mem_map.mp hnext
      exact ⟨first, (List.mem_filter.mp hfirst).1, first.ranked_ranked sign scores⟩

/-- What the cuts leave of the entries of a session, with the scores they leave them. -/
theorem SignalDay.mem_ranked {day : SignalDay F} {result : List (Entry F)}
    (h : day.ranked compiled = .ok result) : ∀ entry ∈ result, ∃ first ∈ day.entries,
      entry = first.ranked (rankSign compiled.rankFilters)
        (rankScores day.universeMetrics compiled.rankFilters) := by
  apply mem_cutEntries ?_ h
  intro hcuts entry _
  rw [hcuts]
  rfl

end Day

section Agreement
variable [PySqrt ℚ]

/-- What the rendered code ranks by before any distance: the first cut it compiles. -/
def renderedCut (bars : List (SignalBar (Flt ℚ) × Bool)) (ticker : String)
    (conditions : List (Condition (Flt ℚ))) : Option (Flt ℚ) :=
  (conditions.filterMap rankFilter).head?.bind fun cut =>
    (lastFigure bars cut.metric ticker).map fun value => (if cut.top then 1 else -1) * value

/-- Where both evaluators rank an entry alike. With a cut on both sides its figure is one and the same;
with none the distances decide. A flag that names a share of the universe is a cut of the store alone. -/
def RankedAlike (bars : List (SignalBar (Flt ℚ) × Bool)) (ticker : String)
    (conditions : List (Condition (Flt ℚ))) (sides : Condition (Flt ℚ) → Option (ℚ × ℚ))
    (figure : Condition (Flt ℚ) → Option ℚ) : Prop :=
  match renderedCut bars ticker conditions, storedCut figure conditions with
  | none, none => MarginsAgree (sharedDistances sides conditions) (extraDistances sides conditions)
  | some value, some value' => value = .num value'
  | some value, none =>
    value = .num (leastOr 0 (sharedDistances sides conditions ++ extraDistances sides conditions))
  | none, some value' => inBand (leastOr 0 (sharedDistances sides conditions)) = value'

theorem foldlM_rankFilters {conditions : List (Condition (Flt ℚ))}
    {compiled compiled' : CompiledConditions (Flt ℚ)}
    (h : conditions.foldlM CompiledConditions.add compiled = some compiled') :
    compiled'.rankFilters = compiled.rankFilters ++ conditions.filterMap rankFilter := by
  induction conditions generalizing compiled with
  | nil =>
    cases h
    exact (List.append_nil _).symm
  | cons condition conditions ih =>
    rw [List.foldlM_cons] at h
    obtain ⟨next, hadd, hrest⟩ := Option.bind_eq_some_iff.mp h
    rw [ih hrest]
    unfold CompiledConditions.add at hadd
    dsimp only at hadd
    cases hcut : rankFilter condition with
    | some cut =>
      rw [hcut] at hadd
      cases hadd
      rw [List.filterMap_cons, hcut, List.append_assoc, List.singleton_append]
    | none =>
      rw [hcut] at hadd
      obtain ⟨test, -, rfl⟩ := Option.map_eq_some_iff.mp hadd
      rw [List.filterMap_cons, hcut]

theorem compileConditions_rankFilters {conditions : List (Condition (Flt ℚ))}
    {compiled : CompiledConditions (Flt ℚ)} (h : compileConditions conditions = some compiled) :
    compiled.rankFilters = conditions.filterMap rankFilter := by
  unfold compileConditions at h
  split at h
  · cases h
  · exact foldlM_rankFilters h

theorem rankFilter_perStock {condition : Condition (Flt ℚ)} (h : perStock condition = true) :
    rankFilter condition = none := by
  rw [rankFilter, Option.isNone_iff_eq_none.mp h]
  rfl

theorem compileOne_perStock {conditions : List (Condition (Flt ℚ))}
    {compiled : CompiledConditions (Flt ℚ)} (h : compileConditions conditions = some compiled) :
    ∀ condition ∈ conditions, perStock condition = true → (compileOne condition).isSome := by
  intro condition hmem hstock
  have htranslatable := ((isSome_compileConditions conditions).mp (by rw [h]; rfl)).2 condition hmem
  apply htranslatable.resolve_left
  rw [rankFilter_perStock hstock]
  exact Bool.false_ne_true

/-- On a bar that meets the rule with all its operands there, both evaluators have a score for the entry,
and the scores are one exactly where the bar is ranked alike. -/
theorem entryScores_agree {conditions : List (DescribedCondition (Flt ℚ))}
    {compiled : CompiledConditions (Flt ℚ)} {S : PreparedFeatureStore (Flt ℚ)}
    {Φ : FeatureCaches (Flt ℚ) → Prop} {index : ℕ} {bars : List (SignalBar (Flt ℚ) × Bool)}
    {bar : SignalBar (Flt ℚ)} {day : SignalDay (Flt ℚ)}
    {sides : Condition (Flt ℚ) → Option (ℚ × ℚ)} {figure : Condition (Flt ℚ) → Option ℚ}
    (hcompiled : compileConditions (conditions.map (·.toCondition)) = some compiled)
    (hday : signalDay compiled (compileScoreExpression (conditions.map (·.toCondition))) bars = .ok day)
    (hbar : (bar, false) ∈ bars) (hmatch : bar.entryOk compiled = .ok true)
    (hvalues : RowValues S Φ index bar (conditions.map (·.toCondition)) sides figure) :
    ∃ score stored : ℚ,
      ⟨bar.row.signalTicker, bar.close, .num score⟩ ∈ day.entries ∧
      Yields Φ (S.defaultEntryScore index
          (fallbackRankMetric ((conditions.map (·.toCondition)).filter fun condition => !perStock condition))
          (conditions.filter fun condition => perStock condition.toCondition)) (.ok (.num stored)) ∧
      ((Entry.ranked (rankSign compiled.rankFilters)
          (rankScores day.universeMetrics compiled.rankFilters)
          ⟨bar.row.signalTicker, bar.close, .num score⟩).score = .num stored ↔
        RankedAlike bars bar.row.signalTicker (conditions.map (·.toCondition)) sides figure) := by
  have hscore := hvalues.entryScore (compileOne_perStock hcompiled)
  refine ⟨_, _, (foldlM_add hday).2.2 bar _ hbar hmatch hscore, hvalues.defaultEntryScore, ?_⟩
  have hcuts := compileConditions_rankFilters hcompiled
  generalize conditions.map (·.toCondition) = conditions at *
  have hrendered : (Entry.ranked (rankSign compiled.rankFilters)
      (rankScores day.universeMetrics compiled.rankFilters) ⟨bar.row.signalTicker, bar.close,
        .num (inBand (leastOr 0 (sharedDistances sides conditions)))⟩).score =
      (renderedCut bars bar.row.signalTicker conditions).getD
        (.num (inBand (leastOr 0 (sharedDistances sides conditions)))) := by
    unfold renderedCut Entry.ranked
    rw [← hcuts]
    cases hlist : compiled.rankFilters with
    | nil => rfl
    | cons cut cuts =>
      have hscores := rankScores_get? hday hlist bar.row.signalTicker
      rw [hlist] at hscores
      rw [hscores, List.head?_cons, Option.bind_some]
      cases lastFigure bars cut.metric bar.row.signalTicker with
      | none => rfl
      | some value => rfl
  rw [hrendered, RankedAlike]
  cases renderedCut bars bar.row.signalTicker conditions with
  | some value =>
    cases storedCut figure conditions with
    | some value' => rfl
    | none => rfl
  | none =>
    cases storedCut figure conditions with
    | some value' => exact ⟨fun h => Flt.num.inj h, congrArg Flt.num⟩
    | none =>
      rw [← inBand_leastOr_iff]
      exact ⟨fun h => Flt.num.inj h, congrArg Flt.num⟩

theorem lastFigure_alone {bars : List (SignalBar (Flt ℚ) × Bool)} {bar : SignalBar (Flt ℚ)}
    (hbar : (bar, held) ∈ bars)
    (halone : ∀ other ∈ bars, other.1.row.signalTicker = bar.row.signalTicker → other.1 = bar)
    (hfigure : bar.row.num metric = some value) :
    lastFigure bars metric bar.row.signalTicker = some value := by
  have hall : ∀ v ∈ (bars.filter fun other => other.1.row.signalTicker = bar.row.signalTicker).filterMap
      fun other => other.1.row.num metric, v = value := by
    intro v hv
    obtain ⟨other, hother, hv⟩ := List.mem_filterMap.mp hv
    rw [List.mem_filter, decide_eq_true_eq] at hother
    rw [halone other hother.1 hother.2, hfigure] at hv
    exact (Option.some.inj hv).symm
  have hmem : value ∈ (bars.filter fun other => other.1.row.signalTicker = bar.row.signalTicker).filterMap
      fun other => other.1.row.num metric :=
    List.mem_filterMap.mpr ⟨(bar, held), List.mem_filter.mpr ⟨hbar, by simp⟩, hfigure⟩
  have hne := List.ne_nil_of_mem hmem
  rw [lastFigure, List.getLast?_eq_some_getLast hne, hall _ (List.getLast_mem hne)]

theorem rankFilter_top {condition : Condition (Flt ℚ)} {cut : RankFilter (Flt ℚ)}
    (h : rankFilter condition = some cut) :
    cut.top = (condition.operator == .gt || condition.operator == .gte) := by
  unfold rankFilter at h
  obtain ⟨pct, -, h⟩ := Option.bind_eq_some_iff.mp h
  dsimp only at h
  generalize canonicalMetric condition.left = metric at h
  by_cases hknown : metric ∈ currentMetrics ∨ (derivedSeriesSpec metric).isSome = true ∨
      (movingAverageSpec metric).isSome = true
  · rw [if_pos hknown] at h
    cases h
    rfl
  · rw [if_neg hknown] at h
    cases h

/-- A rule that opens its cuts with one the compiler knows ranks a ticker of one row alike. -/
theorem rankedAlike_cut {conditions : List (Condition (Flt ℚ))}
    {bars : List (SignalBar (Flt ℚ) × Bool)} {bar : SignalBar (Flt ℚ)}
    (hfirst : (conditions.filter fun condition => !perStock condition).head? = some first)
    (hcut : rankFilter first = some cut) (hbar : (bar, held) ∈ bars)
    (halone : ∀ other ∈ bars, other.1.row.signalTicker = bar.row.signalTicker → other.1 = bar)
    (hfigure : bar.row.num cut.metric = some (.num value)) (hstored : figure first = some value) :
    RankedAlike bars bar.row.signalTicker conditions sides figure := by
  have hhead : (conditions.filterMap rankFilter).head? = some cut := by
    have hcuts : conditions.filterMap rankFilter =
        (conditions.filter fun condition => !perStock condition).filterMap rankFilter := by
      rw [List.filterMap_filter]
      apply List.filterMap_congr
      intro condition _
      by_cases hstock : perStock condition = true
      · rw [rankFilter_perStock hstock, if_neg (by simp [hstock])]
      · rw [if_pos (by simp [hstock])]
    obtain ⟨rest, hlist⟩ := List.head?_eq_some_iff.mp hfirst
    rw [hcuts, hlist, List.filterMap_cons, hcut, List.head?_cons]
  have hsign : ((if cut.top then 1 else -1) * Flt.num value : Flt ℚ) = .num (cutSign first * value) := by
    rw [rankFilter_top hcut, cutSign]
    cases first.operator <;> rfl
  rw [RankedAlike, renderedCut, storedCut, hhead, hfirst, Option.bind_some, Option.bind_some, hstored,
    lastFigure_alone hbar halone hfigure]
  exact hsign

end Agreement

section Rows
variable {F : Type} [NumPy F] {S : PreparedFeatureStore F} {index : ℕ} {v : F}

theorem finiteAt_mergedSeries {row computed : List F} (h : finiteAt row index = some v)
    (hlength : index < computed.length) : finiteAt (PreparedFeatureStore.mergedSeries row computed) index = some v := by
  obtain ⟨hrow, hfinite⟩ := Option.filter_eq_some_iff.mp h
  rw [finiteAt, PreparedFeatureStore.mergedSeries, List.getElem?_zipWith, hrow, List.getElem?_eq_getElem hlength]
  dsimp only
  rw [if_pos hfinite, Option.filter_some, if_pos hfinite]

/-- A number the rows carry for a metric is what a fresh store reads. -/
theorem finiteAt_fresh (hreads : ReadsRows metric) (hfresh : S.fresh metric = .ok x)
    (hrow : finiteAt (S.rowMetricSeries metric (canonicalMetric metric)) index = some v) :
    finiteAt x index = some v := by
  have hlength := PreparedFeatureStore.fresh_length hfresh
  have hindex : index < S.size := by
    obtain ⟨hget, -⟩ := Option.filter_eq_some_iff.mp hrow
    have hbound := (List.getElem?_eq_some_iff.mp hget).1
    rwa [PreparedFeatureStore.rowMetricSeries, PreparedFeatureStore.column, List.length_map] at hbound
  have hprice : S.priceColumn (canonicalMetric metric) = none := by
    have hname := hreads.1
    simp only [List.mem_cons, List.not_mem_nil, or_false, not_or] at hname
    simp [PreparedFeatureStore.priceColumn, hname]
  have hrsi : canonicalMetric metric ≠ "rsi" := fun h => hreads.1 (by simp [h])
  rw [PreparedFeatureStore.fresh_eq hprice, PreparedFeatureStore.computeMetric, if_neg hrsi, hreads.2.1,
    hreads.2.2] at hfresh
  cases hcatalog : catalogMetric? (canonicalMetric metric) with
  | none =>
    rw [hcatalog] at hfresh
    cases hfresh
    exact hrow
  | some entry =>
    rw [hcatalog] at hfresh
    dsimp only at hfresh
    by_cases hwindow : entry.window = some 0 ∧ S.bars ≠ []
    · rw [if_pos hwindow] at hfresh
      cases hfresh
    · rw [if_neg hwindow, StateE.exec_bind] at hfresh
      rcases hexec : (S.catalogSeries (S.metricSeriesAt (metric.length + 3)) entry).exec .empty with
        ⟨_ | computed, caches⟩
      · rw [hexec] at hfresh
        cases hfresh
      · rw [hexec] at hfresh
        cases hfresh
        apply finiteAt_mergedSeries hrow
        rw [PreparedFeatureStore.mergedSeries, List.length_zipWith] at hlength
        omega

theorem yields_metricSeries {Q : String → Prop} (hQ : Agree S Q) (hmetric : Q metric)
    (hfresh : S.fresh metric = .ok x) :
    Yields (Holds S (S.Good Q)) (S.metricSeries metric) (.ok x) := by
  have hrank := metricRank_le metric
  have hdepth : metricRank metric < PreparedFeatureStore.callDepth metric := by
    unfold PreparedFeatureStore.callDepth
    omega
  rw [← hfresh]
  exact PreparedFeatureStore.yields_metricSeriesAt hQ hmetric hdepth

/-- A metric that is there as a value of the row: the row holds it under its key, and nothing else under
the name as the rule spells it. -/
structure RowOperand (S : PreparedFeatureStore F) (index : ℕ) (bar : SignalBar F) (metric : String) (v : F) :
    Prop where
  known : canonicalMetric metric ∈ currentMetrics ∧ canonicalMetric metric ∉ historyMetrics
  reads : ReadsRows metric
  fresh : ∃ x, S.fresh metric = .ok x
  row : ∃ b, S.bars[index]? = some b ∧ b.row = bar.row
  spelled : bar.row.value metric = .none ∨ bar.row.value metric = .number v
  value : bar.row.value (canonicalMetric metric) = .number v
  finite : PyFloat.isFinite v = true

namespace RowOperand
variable {bar : SignalBar F}

theorem stored {Q : String → Prop} (h : RowOperand S index bar metric v) (hQ : Agree S Q) (hmetric : Q metric) :
    ∃ x, Yields (Holds S (S.Good Q)) (S.metricSeries metric) (.ok x) ∧ finiteAt x index = some v := by
  obtain ⟨x, hfresh⟩ := h.fresh
  refine ⟨x, yields_metricSeries hQ hmetric hfresh, finiteAt_fresh h.reads hfresh ?_⟩
  obtain ⟨b, hb, hrow⟩ := h.row
  have hmeasured : Cell.measured (.number v) = v := if_pos h.finite
  have hget : (S.rowMetricSeries metric (canonicalMetric metric))[index]? = some v := by
    rw [PreparedFeatureStore.rowMetricSeries, PreparedFeatureStore.column, List.getElem?_map, hb,
      Option.map_some, hrow]
    rcases h.spelled with hnone | hnumber
    · have hne : canonicalMetric metric ≠ metric := by
        intro heq
        have hvalue := h.value
        rw [heq, hnone] at hvalue
        cases hvalue
      rw [hnone, if_pos hne, h.value, hmeasured]
    · rw [hnumber]
      exact congrArg some hmeasured
  rw [finiteAt, hget, Option.filter_some, if_pos h.finite]

theorem rendered (h : RowOperand S index bar metric v)
    (hexpr : seriesValue metric none none = some expr) : bar.series expr = .ok (.value v) := by
  have hderived : ∀ c ∈ currentMetrics, c ∉ derivedMetrics := by decide +kernel
  obtain ⟨hcurrent, hhistory⟩ := h.known
  have hspec := h.reads.2.2
  have hvalue := h.value
  unfold seriesValue at hexpr
  generalize canonicalMetric metric = c at *
  dsimp only at hexpr
  by_cases hfiled : c ∈ financialMetrics
  · rw [if_pos hfiled] at hexpr
    cases hexpr
    rw [SignalBar.series, Row.fin, hvalue]
  · rw [if_neg hfiled, if_neg (hderived c hcurrent), if_neg (by rw [hspec]; exact Bool.false_ne_true),
      if_pos hcurrent] at hexpr
    cases hexpr
    have hprice : bar.current c = bar.row.ind c := by
      simp only [historyMetrics, List.mem_cons, List.not_mem_nil, or_false, not_or] at hhistory
      simp only [SignalBar.current, hhistory, if_false]
    rw [SignalBar.series, hprice, Row.ind, hvalue]

end RowOperand
end Rows

theorem plainCondition_unranked : ∀ x ∈ (none : Option (Flt ℚ)), 0 < x ∧ x ≤ 1 := unranked

/-- A plain comparison with its author's words left out. -/
def plainCondition (left : String) (operator : ConditionOperator) (right : Flt ℚ) (consecutive : Option ℕ)
    (hleft : left ≠ "") (hright : rightShape operator (.number right))
    (hconsecutive : ∀ n ∈ consecutive, 0 < n) : DescribedCondition (Flt ℚ) where
  left
  operator
  right := .number right
  window := none
  aggregate := none
  scale := none
  consecutive
  universeRankPct := none
  left_ne := hleft
  right_shape := hright
  window_pos := pos_of_none
  consecutive_pos := hconsecutive
  rank_pos := plainCondition_unranked
  description := none

/-- `roe > 10` -/
def roeAbove : DescribedCondition (Flt ℚ) :=
  plainCondition "roe" .gt (.num 10) none (by decide) trivial pos_of_none

/-- A bar of a stock with a return on equity of 30 percent, a session after its first. -/
def profitableBar : SignalBar (Flt ℚ) :=
  ⟨Dict.empty.insert "roe" (.number (.num 30)), .num 99, .num 101, .num 98, .num 100, .num 1000,
    ⟨[.num 99], [.num 101], [.num 98], [.num 100], [.num 1000]⟩⟩

/-- The store's session of that bar. -/
def profitableStore : PreparedFeatureStore (Flt ℚ) := PreparedFeatureStore.oneBar profitableBar.row

example : canonicalMetric "per" = "per" := by decide +kernel

theorem canonicalMetric_roe : canonicalMetric "roe" = "roe" := by decide +kernel

theorem roe_operand : RowOperand profitableStore 0 profitableBar "roe" (.num 30) where
  known := by decide +kernel
  reads := by
    unfold ReadsRows
    decide +kernel
  fresh := by
    have hrow : ∃ caches, (profitableStore.metricSeries "roe").exec .empty =
        (.ok (profitableStore.rowMetricSeries "roe" (canonicalMetric "roe")), caches) :=
      PreparedFeatureStore.exec_metricSeries_row (by decide +kernel) (by decide +kernel)
        (by decide +kernel) (by decide +kernel) (by decide +kernel)
    obtain ⟨caches, hfresh⟩ := hrow
    exact ⟨_, congrArg Prod.fst hfresh⟩
  row := ⟨_, rfl, rfl⟩
  spelled := .inr rfl
  value := by
    rw [canonicalMetric_roe]
    rfl
  finite := rfl

theorem roe_threshold : (Flt.num 10 * percentScale roeAbove.left : Flt ℚ) = .num 10 := by decide +kernel

theorem roe_agree : Agree profitableStore (PreparedFeatureStore.Queried ["roe"]) :=
  (PreparedFeatureStore.queriesAgree_of_all profitableStore ["roe"] (by decide +kernel) (by decide +kernel)
    (by decide +kernel)).agree

/-- Both evaluators find 30 on the bar, held against 10. -/
theorem roe_values : RowValues profitableStore
    (Holds profitableStore (profitableStore.Good (PreparedFeatureStore.Queried ["roe"]))) 0 profitableBar
    [roeAbove.toCondition] (fun _ => some (30, 10)) (fun _ => none) := by
  refine ⟨?_, ?_, ?_⟩
  · intro condition hmem _ _
    obtain rfl := List.mem_singleton.mp hmem
    obtain ⟨x, hyields, hvalue⟩ := roe_operand.stored roe_agree ⟨"roe", List.mem_singleton_self _, .refl⟩
    refine ⟨x, _, hyields.bind (.pure _), ?_⟩
    rw [comparisonValues, hvalue, roe_threshold]
    rfl
  · intro condition hmem hstock
    obtain rfl := List.mem_singleton.mp hmem
    cases hstock
  · intro condition hmem _ _ _ left right hoperands
    obtain rfl := List.mem_singleton.mp hmem
    have hform : comparisonOperands roeAbove.toCondition = (seriesValue "roe" none none).bind fun left =>
        some (.series left, .literal (.num 10 * percentScale roeAbove.left)) := rfl
    rw [hform] at hoperands
    obtain ⟨expr, hexpr, heq⟩ := Option.bind_eq_some_iff.mp hoperands
    cases heq
    refine ⟨30, 10, rfl, roe_operand.rendered hexpr, ?_⟩
    rw [roe_threshold]
    rfl

theorem entryScores_agree_roe : ∃ compiled day, ∃ score stored : ℚ,
    compileConditions [roeAbove.toCondition] = some compiled ∧
    signalDay compiled (compileScoreExpression [roeAbove.toCondition]) [(profitableBar, false)] = .ok day ∧
    ⟨"000000", .num 100, .num score⟩ ∈ day.entries ∧
    Yields (Holds profitableStore (profitableStore.Good (PreparedFeatureStore.Queried ["roe"])))
      (profitableStore.defaultEntryScore 0 none [roeAbove]) (.ok (.num stored)) ∧
    (Entry.ranked (rankSign compiled.rankFilters) (rankScores day.universeMetrics compiled.rankFilters)
      ⟨"000000", .num 100, .num score⟩).score = .num stored := by
  have hsome : (compileConditions [roeAbove.toCondition]).isSome = true := by decide +kernel
  obtain ⟨compiled, hcompiled⟩ := Option.isSome_iff_exists.mp hsome
  have hruns : (compileConditions [roeAbove.toCondition]).map (fun compiled =>
      ((profitableBar.entryOk compiled).toOption, (signalDay compiled
        (compileScoreExpression [roeAbove.toCondition]) [(profitableBar, false)]).toOption.isSome)) =
      some (some true, true) := by decide +kernel
  rw [hcompiled, Option.map_some, Option.some.injEq, Prod.mk.injEq] at hruns
  obtain ⟨hmatch, hday⟩ := hruns
  cases hrun : signalDay compiled (compileScoreExpression [roeAbove.toCondition])
      [(profitableBar, false)] with
  | error stop =>
    rw [hrun] at hday
    cases hday
  | ok day =>
    have hentry : profitableBar.entryOk compiled = .ok true := by
      cases hok : profitableBar.entryOk compiled with
      | error stop =>
        rw [hok] at hmatch
        cases hmatch
      | ok entry =>
        rw [hok] at hmatch
        exact congrArg Except.ok (Option.some.inj hmatch)
    have hrule : compileConditions ([roeAbove].map (·.toCondition)) = some compiled := hcompiled
    obtain ⟨score, stored, hmem, hstored, hiff⟩ :=
      entryScores_agree hrule hrun (List.mem_singleton_self _) hentry roe_values
    refine ⟨compiled, day, score, stored, hcompiled, hrun, hmem, hstored, hiff.mpr ?_⟩
    have hshared : sharedDistances (fun _ => some (30, 10)) [roeAbove.toCondition] = [2] := by
      decide +kernel
    have hextra : extraDistances (fun _ => some (30, 10)) [roeAbove.toCondition] = [] := by
      decide +kernel
    change MarginsAgree (sharedDistances _ _) (extraDistances _ _)
    rw [List.map_cons, List.map_nil, hshared, hextra]
    refine .inr ⟨2, ⟨List.mem_singleton_self _, fun d hd => (List.mem_singleton.mp hd).ge⟩, .inl ⟨?_, nofun⟩⟩
    norm_num

/-- `operating_margin >= 10` for two sessions in a row -/
def marginTwice : DescribedCondition (Flt ℚ) :=
  plainCondition "operating_margin" .gte (.num 10) (some 2) (by decide) trivial soldTwice_pos

/-- A stock's session with a return on equity of 30 and an operating margin of 12 percent. -/
def filedRow (date : String) (streak : ℚ) : Row (Flt ℚ) :=
  (((((Dict.empty.insert "date" (.text date)).insert "ticker" (.text "005930")).insert "close"
    (.number (.num 100))).insert "roe" (.number (.num 30))).insert "operating_margin"
    (.number (.num 12))).insert "operating_margin_up_streak" (.number (.num streak))

def filedSessions : List (Row (Flt ℚ)) :=
  [filedRow "2024-01-02" 1, filedRow "2024-01-03" 2, filedRow "2024-01-04" 3]

/-- The rendered score skips the streak, the store's does not: 2 becomes 1/5. -/
theorem streak_measured_once :
    (compileConditions [roeAbove.toCondition, marginTwice.toCondition]).bind (fun compiled =>
      (signalBars filedSessions).toOption.bind fun bars => bars[2]?.bind fun bar =>
        (bar.entryOk compiled).toOption.bind fun entryOk =>
          (bar.entryScore (compileScoreExpression
            [roeAbove.toCondition, marginTwice.toCondition])).toOption.map fun score =>
              (entryOk, score)) = some (true, .num 2) ∧
    (PreparedFeatureStore.ofRows filedSessions true).toOption.map (fun S =>
      (((S.conditionMatches roeAbove 2).exec .empty).1.toOption,
        ((S.conditionMatches marginTwice 2).exec .empty).1.toOption,
        ((S.defaultEntryScore 2 none [roeAbove, marginTwice]).exec .empty).1.toOption)) =
      some (some true, some true, some (.num (1 / 5))) := by
  decide +kernel

end QuantAgent.Features
