import QuantAgent.Lib.PyText
import Mathlib.Data.List.DropRight

namespace QuantAgent
set_option autoImplicit true

theorem toLower_of_not_isUpper {c : Char} (h : ¬ c.isUpper = true) : c.toLower = c := by
  unfold Char.isUpper at h
  rw [decide_eq_true_eq] at h
  exact dif_neg h

/-- A property of the capital letters, letter by letter. -/
theorem forall_isUpper {P : Char → Prop} (h : ∀ k, 65 ≤ k → k ≤ 90 → P (Char.ofNat k)) {c : Char}
    (hupper : c.isUpper = true) : P c := by
  obtain ⟨hlow, hhigh⟩ := of_decide_eq_true hupper
  rw [← Char.ofNat_toNat c]
  exact h c.toNat (UInt32.le_iff_toNat_le.mp hlow) (UInt32.le_iff_toNat_le.mp hhigh)

theorem isPySpace_toLower (c : Char) : isPySpace c.toLower = isPySpace c := by
  by_cases hupper : c.isUpper = true
  · apply forall_isUpper (P := fun c => isPySpace c.toLower = isPySpace c) ?_ hupper
    intro k hlow hhigh
    interval_cases k <;> rfl
  · rw [toLower_of_not_isUpper hupper]

theorem toLower_toLower (c : Char) : c.toLower.toLower = c.toLower := by
  by_cases hupper : c.isUpper = true
  · apply forall_isUpper (P := fun c => c.toLower.toLower = c.toLower) ?_ hupper
    intro k hlow hhigh
    interval_cases k <;> rfl
  · rw [toLower_of_not_isUpper hupper, toLower_of_not_isUpper hupper]

theorem pyLower_pyLower (s : String) : pyLower (pyLower s) = pyLower s := by
  rw [pyLower, pyLower, String.toList_ofList, List.map_map]
  congr 2
  funext c
  exact toLower_toLower c

theorem pyStrip_eq (s : String) :
    pyStrip s = String.ofList ((s.toList.dropWhile isPySpace).rdropWhile isPySpace) := rfl

theorem pyStrip_pyLower (s : String) : pyStrip (pyLower s) = pyLower (pyStrip s) := by
  have hspace : isPySpace ∘ Char.toLower = isPySpace := funext isPySpace_toLower
  rw [pyStrip, pyStrip, pyLower, pyLower, String.toList_ofList, String.toList_ofList, List.dropWhile_map,
    hspace, ← List.map_reverse, List.dropWhile_map, hspace, ← List.map_reverse]

theorem pyStrip_pyStrip (s : String) : pyStrip (pyStrip s) = pyStrip s := by
  rw [pyStrip_eq, pyStrip_eq, String.toList_ofList]
  congr 1
  have hfront : ((s.toList.dropWhile isPySpace).rdropWhile isPySpace).dropWhile isPySpace =
      (s.toList.dropWhile isPySpace).rdropWhile isPySpace := by
    rw [List.dropWhile_eq_self_iff]
    intro hpos
    obtain ⟨rest, hrest⟩ := List.rdropWhile_prefix isPySpace (s.toList.dropWhile isPySpace)
    have hstart : 0 < (s.toList.dropWhile isPySpace).length := by
      rw [← hrest, List.length_append]
      omega
    have hhead := List.dropWhile_get_zero_not isPySpace s.toList hstart
    have hsame : (s.toList.dropWhile isPySpace)[0]? =
        ((s.toList.dropWhile isPySpace).rdropWhile isPySpace)[0]? := by
      conv_lhs => rw [← hrest]
      exact List.getElem?_append_left hpos
    rw [List.getElem?_eq_getElem hstart, List.getElem?_eq_getElem hpos, Option.some.injEq] at hsame
    rw [← hsame]
    exact hhead
  rw [hfront, List.rdropWhile_idempotent]

end QuantAgent
