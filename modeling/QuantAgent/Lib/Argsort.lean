import Mathlib.Data.List.Sort
import Mathlib.Tactic

namespace QuantAgent
set_option autoImplicit true

/-- The places of a list, in an order that sorts its keys. -/
structure SortsPlaces [LinearOrder κ] (key : α → κ) (places : List ℕ) (xs : List α) : Prop where
  perm : places.Perm (List.range xs.length)
  sorted : places.Pairwise fun i j => ∀ x ∈ xs[i]?, ∀ y ∈ xs[j]?, key x ≤ key y

section
variable [LinearOrder κ] {key : α → κ} {places : List ℕ} {xs : List α}

theorem SortsPlaces.nodup (h : SortsPlaces key places xs) : places.Nodup :=
  h.perm.nodup_iff.mpr List.nodup_range

theorem SortsPlaces.length (h : SortsPlaces key places xs) : places.length = xs.length := by
  rw [h.perm.length_eq, List.length_range]

theorem SortsPlaces.lt {k i : ℕ} (h : SortsPlaces key places xs) (hi : places[k]? = some i) : i < xs.length :=
  List.mem_range.mp (h.perm.mem_iff.mp (List.mem_of_getElem? hi))

/-- In a strictly sorted list, as many entries lie below one as stand before it. -/
theorem countP_lt_of_pairwise {l : List α} {k : ℕ} (hl : l.Pairwise fun a b => key a < key b)
    (hk : l[k]? = some x) : l.countP (fun y => key y < key x) = k := by
  induction l generalizing k with
  | nil => cases hk
  | cons a l ih =>
    obtain ⟨ha, hl⟩ := List.pairwise_cons.mp hl
    cases k with
    | zero =>
      cases hk
      rw [List.countP_cons_of_neg (by simp), List.countP_eq_zero]
      intro y hy
      simpa using (ha y hy).le
    | succ k =>
      rw [List.getElem?_cons_succ] at hk
      rw [List.countP_cons_of_pos (by simpa using ha x (List.mem_of_getElem? hk)), ih hl hk]

theorem map_getD_range (xs : List α) (d : α) : (List.range xs.length).map (fun i => xs.getD i d) = xs := by
  apply List.ext_getElem
  · simp
  · intro i _ hi
    simp [hi]

/-- With distinct keys, the rank of an entry is the number of entries below it. -/
theorem SortsPlaces.rank_eq {k i : ℕ} (h : SortsPlaces key places xs) (hkeys : (xs.map key).Nodup)
    (hk : places[k]? = some i) (hx : xs[i]? = some x) : xs.countP (fun y => key y < key x) = k := by
  have hperm : (places.map fun i => xs.getD i x).Perm xs := by
    have hmap := h.perm.map fun i => xs.getD i x
    rwa [map_getD_range] at hmap
  have hgetD : ∀ j < xs.length, xs[j]? = some (xs.getD j x) := by
    intro j hj
    simp [hj]
  have hlt : (places.map fun i => xs.getD i x).Pairwise fun a b => key a < key b := by
    rw [List.pairwise_map]
    refine (h.sorted.and h.nodup).imp_of_mem ?_
    intro a b ha hb hab
    have ha := List.mem_range.mp (h.perm.mem_iff.mp ha)
    have hb := List.mem_range.mp (h.perm.mem_iff.mp hb)
    have hle := hab.1 _ (hgetD a ha) _ (hgetD b hb)
    refine lt_of_le_of_ne hle fun heq => hab.2 ?_
    have hkey : ∀ j, j < xs.length → (xs.map key)[j]? = some (key (xs.getD j x)) := by
      intro j hj
      rw [List.getElem?_map, hgetD j hj, Option.map_some]
    have hsame : (xs.map key)[a]? = (xs.map key)[b]? := by rw [hkey a ha, hkey b hb, heq]
    exact (List.getElem?_inj (by rwa [List.length_map]) hkeys).mp hsame
  rw [← hperm.countP_eq]
  apply countP_lt_of_pairwise hlt
  rw [List.getElem?_map, hk, Option.map_some]
  simp [hx]

end
end QuantAgent
