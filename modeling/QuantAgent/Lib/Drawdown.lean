import Mathlib.Algebra.Order.Field.Basic
import Mathlib.Order.Bounds.Basic
import Mathlib.Tactic

namespace QuantAgent
set_option autoImplicit true

section
variable [Field K] [LinearOrder K] [IsStrictOrderedRing K] {levels : List K}

/-- The return from each level to each level that is not before it. -/
def drawdowns (levels : List K) : Set K :=
  {d | ∃ (i j : ℕ) (a b : K), i ≤ j ∧ levels[i]? = some a ∧ levels[j]? = some b ∧ d = b / a - 1}

/-- The highest level so far and the deepest fall so far. -/
structure DeepestFall (levels : List K) (peak deepest : K) : Prop where
  peak : IsGreatest {a | a ∈ levels} peak
  least : IsLeast (drawdowns levels) deepest

omit [LinearOrder K] [IsStrictOrderedRing K] in
/-- A level appended adds the returns to it, and no others. -/
theorem drawdowns_concat (levels : List K) (x : K) :
    drawdowns (levels ++ [x]) = drawdowns levels ∪ (fun a => x / a - 1) '' {a | a ∈ levels ++ [x]} := by
  ext d
  constructor
  · rintro ⟨i, j, a, b, hij, ha, hb, rfl⟩
    rcases Nat.lt_or_ge j levels.length with hj | hj
    · rw [List.getElem?_append_left (hij.trans_lt hj)] at ha
      rw [List.getElem?_append_left hj] at hb
      exact .inl ⟨i, j, a, b, hij, ha, hb, rfl⟩
    · rw [List.getElem?_append_right hj] at hb
      have hx : b = x := by
        cases hk : j - levels.length <;> simp_all
      subst hx
      exact .inr ⟨a, List.mem_of_getElem? ha, rfl⟩
  · rintro (⟨i, j, a, b, hij, ha, hb, rfl⟩ | ⟨a, ha, rfl⟩)
    · have hj := (List.getElem?_eq_some_iff.mp hb).1
      refine ⟨i, j, a, b, hij, ?_, ?_, rfl⟩
      · rw [List.getElem?_append_left (hij.trans_lt hj), ha]
      · rw [List.getElem?_append_left hj, hb]
    · obtain ⟨i, hi, hget⟩ := List.mem_iff_getElem.mp ha
      refine ⟨i, levels.length, a, x, ?_, ?_, ?_, rfl⟩
      · rw [List.length_append, List.length_singleton] at hi
        exact Nat.le_of_lt_succ hi
      · rw [List.getElem?_eq_getElem hi, hget]
      · exact List.getElem?_concat_length

omit [IsStrictOrderedRing K] in
theorem DeepestFall.singleton {x : K} (hx : 0 < x) : DeepestFall [x] x 0 where
  peak := ⟨List.mem_singleton_self x, fun a ha => (List.mem_singleton.mp ha).le⟩
  least := by
    have hself : x / x - 1 = 0 := by rw [div_self hx.ne', sub_self]
    constructor
    · exact ⟨0, 0, x, x, le_rfl, rfl, rfl, hself.symm⟩
    · rintro d ⟨i, j, a, b, _, ha, hb, rfl⟩
      have ha : a = x := List.mem_singleton.mp (List.mem_of_getElem? ha)
      have hb : b = x := List.mem_singleton.mp (List.mem_of_getElem? hb)
      rw [ha, hb, hself]

/-- The deepest fall to the last level is the fall from the peak. -/
theorem DeepestFall.concat {peak deepest x : K} (h : DeepestFall levels peak deepest)
    (hpos : ∀ a ∈ levels ++ [x], 0 < a) :
    DeepestFall (levels ++ [x]) (max peak x) (min deepest (x / max peak x - 1)) := by
  have hpeak : IsGreatest {a | a ∈ levels ++ [x]} (max peak x) := by
    have hunion : {a | a ∈ levels ++ [x]} = {a | a ∈ levels} ∪ {x} := by
      ext a
      simp [or_comm]
    rw [hunion]
    exact h.peak.union isGreatest_singleton
  have hx : 0 < x := hpos x (by simp)
  refine ⟨hpeak, ?_⟩
  rw [drawdowns_concat]
  refine h.least.union ⟨⟨max peak x, hpeak.1, rfl⟩, ?_⟩
  rintro d ⟨a, ha, rfl⟩
  have hquotient : x / max peak x ≤ x / a := by
    apply div_le_div_of_nonneg_left hx.le (hpos a ha)
    exact hpeak.2 ha
  exact sub_le_sub_right hquotient 1

omit [IsStrictOrderedRing K] in
theorem DeepestFall.nonpos {peak deepest : K} (h : DeepestFall levels peak deepest)
    (hpos : ∀ a ∈ levels, 0 < a) : deepest ≤ 0 := by
  obtain ⟨i, hi, hget⟩ := List.mem_iff_getElem.mp h.peak.1
  have hself : peak / peak - 1 ∈ drawdowns levels :=
    ⟨i, i, peak, peak, le_rfl, by rw [List.getElem?_eq_getElem hi, hget],
      by rw [List.getElem?_eq_getElem hi, hget], rfl⟩
  have hle := h.least.2 hself
  rwa [div_self (hpos peak h.peak.1).ne', sub_self] at hle

end

end QuantAgent
