import Mathlib.Data.List.Infix
import Mathlib.Data.List.TakeDrop
import Mathlib.Tactic

namespace QuantAgent
set_option autoImplicit true

variable {α : Type}

/-- `s[a:b]`, for bounds that are not negative. -/
def pySlice (a b : ℕ) (s : List α) : List α := (s.take b).drop a

/-- The word stands in the text at the place `i`. -/
def Occurs (w s : List α) (i : ℕ) : Prop := w <+: s.drop i

instance [DecidableEq α] (w s : List α) (i : ℕ) : Decidable (Occurs w s i) :=
  inferInstanceAs (Decidable (w <+: s.drop i))

theorem Occurs.length_le {w s : List α} (h : Occurs w s i) (hw : w ≠ []) :
    i + w.length ≤ s.length := by
  have hle := List.IsPrefix.length_le h
  have hpos := List.length_pos_iff.mpr hw
  rw [List.length_drop] at hle
  omega

theorem infix_iff_occurs {w s : List α} : w <:+: s ↔ ∃ i, Occurs w s i := by
  constructor
  · rintro ⟨front, rest, rfl⟩
    refine ⟨front.length, rest, ?_⟩
    rw [List.append_assoc, List.drop_left]
  · rintro ⟨i, rest, hrest⟩
    refine ⟨s.take i, rest, ?_⟩
    rw [List.append_assoc, hrest, List.take_append_drop]

theorem occurs_drop {w s : List α} : Occurs w (s.drop a) i ↔ Occurs w s (a + i) := by
  rw [Occurs, Occurs, List.drop_drop]

theorem occurs_take {w s : List α} (hw : w ≠ []) :
    Occurs w (s.take b) i ↔ Occurs w s i ∧ i + w.length ≤ b := by
  constructor
  · intro h
    have hle := h.length_le hw
    rw [List.length_take] at hle
    refine ⟨h.trans ?_, by omega⟩
    rw [List.drop_take]
    exact List.take_prefix _ _
  · rintro ⟨h, hle⟩
    rw [Occurs, List.drop_take]
    exact List.prefix_take_iff.mpr ⟨h, by omega⟩

/-- What stands in a slice is what stands in the text between its bounds. -/
theorem occurs_pySlice {w s : List α} (hw : w ≠ []) :
    Occurs w (pySlice a b s) i ↔ Occurs w s (a + i) ∧ a + i + w.length ≤ b := by
  rw [pySlice, occurs_drop, occurs_take hw]

theorem infix_pySlice {w s : List α} (hw : w ≠ []) :
    w <:+: pySlice a b s ↔ ∃ j, Occurs w s j ∧ a ≤ j ∧ j + w.length ≤ b := by
  rw [infix_iff_occurs]
  constructor
  · rintro ⟨i, h⟩
    obtain ⟨hs, hle⟩ := (occurs_pySlice hw).mp h
    exact ⟨a + i, hs, Nat.le_add_right a i, hle⟩
  · rintro ⟨j, hs, ha, hle⟩
    refine ⟨j - a, (occurs_pySlice hw).mpr ?_⟩
    rw [Nat.add_sub_cancel' ha]
    exact ⟨hs, hle⟩

theorem pySlice_pySlice (a b c d : ℕ) (s : List α) :
    pySlice a b (pySlice c d s) = pySlice (c + a) (min (c + b) d) s := by
  rw [pySlice, pySlice, pySlice, List.take_drop, List.drop_drop, List.take_take]

/-- What shares no element with a part in the middle stands on one side of it. -/
theorem infix_around {t l m r : List α} (hne : t ≠ []) (hm : m ≠ []) (h : ∀ c ∈ t, c ∉ m) :
    t <:+: l ++ (m ++ r) ↔ t <:+: l ∨ t <:+: r := by
  have hcut : ∀ {a b : List α}, t = a ++ b → (∀ c ∈ b.head?, c ∈ m) → b = [] := by
    intro a b ht hb
    cases b with
    | nil => rfl
    | cons c b =>
      exact absurd (hb c rfl) (h c (by rw [ht]; exact List.mem_append_right _ (List.mem_cons_self ..)))
  constructor
  · intro hin
    rcases List.infix_append_iff.mp hin with hl | hmr | ⟨a, b, ht, ha, hb⟩
    · exact .inl hl
    · rcases List.infix_append_iff.mp hmr with hinm | hr | ⟨a, b, ht, ha, hb⟩
      · cases t with
        | nil => exact absurd rfl hne
        | cons c t =>
          exact absurd (hinm.subset (List.mem_cons_self ..)) (h c (List.mem_cons_self ..))
      · exact .inr hr
      · cases a with
        | nil =>
          rw [List.nil_append] at ht
          exact .inr (ht ▸ hb.isInfix)
        | cons c a =>
          exact absurd (ha.subset (List.mem_cons_self ..))
            (h c (by rw [ht]; exact List.mem_cons_self ..))
    · have hnil : b = [] := by
        apply hcut ht
        intro c hc
        obtain ⟨rest, hrest⟩ := hb
        cases b with
        | nil => cases hc
        | cons d b =>
          cases hc
          cases m with
          | nil => exact absurd rfl hm
          | cons e m =>
            obtain ⟨rfl, -⟩ := List.cons.inj hrest
            exact List.mem_cons_self ..
      rw [hnil, List.append_nil] at ht
      exact .inl (ht ▸ ha.isInfix)
  · rintro (hl | hr)
    · exact hl.trans (List.prefix_append _ _).isInfix
    · exact (hr.trans (List.suffix_append _ _).isInfix).trans (List.suffix_append _ _).isInfix

section Rfind
variable [DecidableEq α]

/-- `s.rfind(w)` of a word that is not empty, `none` for -1. -/
def rfind (w : List α) : List α → Option ℕ
  | [] => none
  | c :: rest =>
    match rfind w rest with
    | some i => some (i + 1)
    | none => if w <+: c :: rest then some 0 else none

theorem rfind_eq_none {w s : List α} (hw : w ≠ []) (h : rfind w s = none) : ¬ Occurs w s i := by
  induction s generalizing i with
  | nil =>
    intro hoccurs
    have hle := hoccurs.length_le hw
    have hpos := List.length_pos_iff.mpr hw
    rw [List.length_nil] at hle
    omega
  | cons c rest ih =>
    rw [rfind] at h
    split at h
    · cases h
    · rename_i hnone
      split at h
      · cases h
      · rename_i hfront
        cases i with
        | zero => exact hfront
        | succ i => exact ih hnone

theorem rfind_spec {w s : List α} (hw : w ≠ []) (h : rfind w s = some i) :
    Occurs w s i ∧ ∀ j, i < j → ¬ Occurs w s j := by
  induction s generalizing i with
  | nil => cases h
  | cons c rest ih =>
    rw [rfind] at h
    split at h
    · rename_i k hk
      obtain rfl := Option.some.inj h
      obtain ⟨hoccurs, hlast⟩ := ih hk
      refine ⟨hoccurs, fun j hj => ?_⟩
      cases j with
      | zero => omega
      | succ j => exact hlast j (by omega)
    · rename_i hnone
      split at h
      · rename_i hfront
        obtain rfl := Option.some.inj h
        refine ⟨hfront, fun j hj => ?_⟩
        cases j with
        | zero => omega
        | succ j =>
          have hrest : ¬ Occurs w rest j := rfind_eq_none hw hnone
          exact hrest
      · cases h

/-- The last place of a word is the one after which it does not stand. -/
theorem rfind_eq_some {w s : List α} (hw : w ≠ []) (hoccurs : Occurs w s i)
    (hlast : ∀ j, i < j → ¬ Occurs w s j) : rfind w s = some i := by
  cases hfind : rfind w s with
  | none => exact absurd hoccurs (rfind_eq_none hw hfind)
  | some j =>
    obtain ⟨hj, hlast'⟩ := rfind_spec hw hfind
    rcases lt_trichotomy i j with hij | rfl | hji
    · exact absurd hj (hlast j hij)
    · rfl
    · exact absurd hoccurs (hlast' i hji)

/-- The last place in a slice that holds the word where it stands before the end of the slice. -/
theorem rfind_pySlice {w s : List α} (hw : w ≠ []) (hoccurs : Occurs w s i) (ha : a ≤ i)
    (hb : i + w.length ≤ b) :
    ∃ j, rfind w (s.take b) = some j ∧ i ≤ j ∧ rfind w (pySlice a b s) = some (j - a) := by
  have htake : Occurs w (s.take b) i := (occurs_take hw).mpr ⟨hoccurs, hb⟩
  cases hfind : rfind w (s.take b) with
  | none => exact absurd htake (rfind_eq_none hw hfind)
  | some j =>
    obtain ⟨hj, hlast⟩ := rfind_spec hw hfind
    have hij : i ≤ j := not_lt.mp fun hlt => hlast i hlt htake
    refine ⟨j, rfl, hij, ?_⟩
    apply rfind_eq_some hw
    · rw [pySlice, occurs_drop, Nat.add_sub_cancel' (ha.trans hij)]
      exact hj
    · intro k hk
      rw [pySlice, occurs_drop]
      exact hlast (a + k) (by omega)

end Rfind

end QuantAgent
