import Mathlib.Data.List.DropRight
import Mathlib.Tactic

namespace QuantAgent
set_option autoImplicit true

/-- Each item drops the earlier ones it makes useless from the end of those kept so far. -/
def survivors (drops : α → α → Bool) (l : List α) : List α :=
  l.foldl (fun kept a => kept.rdropWhile (drops a) ++ [a]) []

section
variable {drops : α → α → Bool}

@[simp] theorem survivors_nil : survivors drops [] = [] := rfl

theorem survivors_concat (l : List α) (a : α) :
    survivors drops (l ++ [a]) = (survivors drops l).rdropWhile (drops a) ++ [a] := by
  rw [survivors, List.foldl_append]
  rfl

theorem survivors_sublist (l : List α) : (survivors drops l).Sublist l := by
  induction l using List.reverseRecOn with
  | nil => exact .slnil
  | append_singleton l a ih =>
    rw [survivors_concat]
    exact ((List.rdropWhile_prefix _ _).sublist.trans ih).append (.refl _)

theorem survivors_getLast? (l : List α) : (survivors drops l).getLast? = l.getLast? := by
  rcases List.eq_nil_or_concat l with rfl | ⟨l, a, rfl⟩
  · rfl
  · rw [List.concat_eq_append, survivors_concat, List.getLast?_concat, List.getLast?_concat]

/-- Without drops every item survives. -/
theorem survivors_eq_self (h : ∀ a b, drops a b = false) (l : List α) : survivors drops l = l := by
  induction l using List.reverseRecOn with
  | nil => rfl
  | append_singleton l a ih =>
    have hkeep : l.rdropWhile (drops a) = l :=
      List.rdropWhile_eq_self_iff.mpr fun hl => by simp [h]
    rw [survivors_concat, ih, hkeep]

theorem rdropWhile_cons (p : α → Bool) (a : α) (l : List α) :
    (a :: l).rdropWhile p = if l.rdropWhile p = [] ∧ p a = true then [] else a :: l.rdropWhile p := by
  induction l using List.reverseRecOn with
  | nil => simp [List.rdropWhile_singleton]
  | append_singleton l b ih =>
    rw [← List.cons_append, List.rdropWhile_concat, List.rdropWhile_concat]
    by_cases hb : p b = true
    · rw [if_pos hb, if_pos hb, ih]
    · rw [if_neg hb, if_neg hb, if_neg (by simp)]
      rfl

/-- The first item survives or leaves the others as they are without it. -/
theorem survivors_cons (a : α) (l : List α) :
    survivors drops (a :: l) = survivors drops l ∨
      survivors drops (a :: l) = a :: survivors drops l := by
  induction l using List.reverseRecOn with
  | nil => exact .inr rfl
  | append_singleton l b ih =>
    rw [← List.cons_append, survivors_concat, survivors_concat]
    rcases ih with h | h
    · exact .inl (by rw [h])
    · rw [h, rdropWhile_cons]
      split
      · rename_i hempty
        exact .inl (by rw [hempty.1])
      · exact .inr rfl

/-- Items that leave at the front leave the survivors at the front. -/
theorem survivors_dropWhile {p : α → Bool} {l : List α}
    (h : l.Pairwise fun a b => p b = true → p a = true) :
    (survivors drops l).dropWhile p = survivors drops (l.dropWhile p) := by
  induction l with
  | nil => rfl
  | cons a l ih =>
    obtain ⟨ha, hl⟩ := List.pairwise_cons.mp h
    by_cases hp : p a = true
    · rw [List.dropWhile_cons_of_pos hp, ← ih hl]
      rcases survivors_cons a l with hs | hs
      · rw [hs]
      · rw [hs, List.dropWhile_cons_of_pos hp]
    · rw [List.dropWhile_cons_of_neg hp]
      have hkeep : ∀ b ∈ survivors drops (a :: l), ¬p b = true := by
        intro b hb hpb
        rcases List.mem_cons.mp ((survivors_sublist _).subset hb) with rfl | hb
        · exact hp hpb
        · exact hp (ha b hb hpb)
      cases hs : survivors drops (a :: l) with
      | nil => rfl
      | cons b rest =>
        rw [List.dropWhile_cons_of_neg (hkeep b (hs ▸ List.mem_cons_self ..))]

/-- A front that a longer cut removes can be removed before more items come. -/
theorem dropWhile_dropWhile_append {p q : α → Bool} (h : ∀ a, q a = true → p a = true)
    (l m : List α) : (l.dropWhile q ++ m).dropWhile p = (l ++ m).dropWhile p := by
  induction l with
  | nil => rfl
  | cons a l ih =>
    by_cases hq : q a = true
    · rw [List.dropWhile_cons_of_pos hq, ih, List.cons_append, List.dropWhile_cons_of_pos (h a hq)]
    · rw [List.dropWhile_cons_of_neg hq]

theorem map_rdropWhile (f : α → β) (p : β → Bool) (l : List α) :
    (l.rdropWhile fun a => p (f a)).map f = (l.map f).rdropWhile p := by
  induction l using List.reverseRecOn with
  | nil => rfl
  | append_singleton l a ih =>
    rw [List.map_append, List.map_singleton, List.rdropWhile_concat, List.rdropWhile_concat]
    by_cases hp : p (f a) = true
    · rw [if_pos hp, if_pos hp, ih]
    · rw [if_neg hp, if_neg hp, List.map_append, List.map_singleton]

theorem survivors_map (f : α → β) (drops : β → β → Bool) (l : List α) :
    (survivors (fun a b => drops (f a) (f b)) l).map f = survivors drops (l.map f) := by
  induction l using List.reverseRecOn with
  | nil => rfl
  | append_singleton l a ih =>
    rw [survivors_concat, List.map_append, map_rdropWhile f (drops (f a)), ih, List.map_append,
      List.map_singleton, survivors_concat]

/-- What is left of sorted items once a new one dropped from their end is sorted with it. -/
theorem sorted_concat {kept : List α} {x : α}
    (htrans : ∀ x y z, drops x y = true → drops y z = true → drops x z = true)
    (htotal : ∀ y ∈ kept, drops x y = true ∨ drops y x = true)
    (hsorted : kept.Pairwise fun a b => drops a b = true) :
    (kept.rdropWhile (drops x) ++ [x]).Pairwise fun a b => drops a b = true := by
  have hfront := List.rdropWhile_prefix (drops x) kept
  have hleft := hsorted.sublist hfront.sublist
  rw [List.pairwise_append]
  refine ⟨hleft, List.pairwise_singleton _ _, fun y hy z hz => ?_⟩
  rw [List.mem_singleton.mp hz]
  have hne : kept.rdropWhile (drops x) ≠ [] := List.ne_nil_of_mem hy
  have hlast := List.rdropWhile_last_not (drops x) kept hne
  have hbeaten : drops ((kept.rdropWhile (drops x)).getLast hne) x = true :=
    (htotal _ (hfront.subset (List.getLast_mem hne))).resolve_left hlast
  rw [← List.dropLast_append_getLast hne] at hy hleft
  rcases List.mem_append.mp hy with hy | hy
  · exact htrans _ _ _ ((List.pairwise_append.mp hleft).2.2 y hy _ (List.mem_cons_self ..)) hbeaten
  · rw [List.mem_singleton.mp hy]
    exact hbeaten

/-- When `drops` orders the items, the first survivor is the best one. -/
theorem survivors_head? {l : List α} {a : α}
    (htrans : ∀ x y z, drops x y = true → drops y z = true → drops x z = true)
    (htotal : ∀ x ∈ a :: l, ∀ y ∈ a :: l, drops x y = true ∨ drops y x = true) :
    (survivors drops (a :: l)).head? =
        some (l.foldl (fun best x => if drops x best = true then x else best) a) ∧
      (survivors drops (a :: l)).Pairwise fun x y => drops x y = true := by
  induction l using List.reverseRecOn with
  | nil => exact ⟨rfl, List.pairwise_singleton _ _⟩
  | append_singleton l x ih =>
    have hmem : ∀ y ∈ a :: l, y ∈ a :: (l ++ [x]) := fun y hy => List.mem_append_left [x] hy
    have hx : x ∈ a :: (l ++ [x]) := List.mem_append_right (a :: l) (List.mem_cons_self ..)
    obtain ⟨hhead, hsorted⟩ := ih fun y hy z hz => htotal y (hmem y hy) z (hmem z hz)
    have hsub : survivors drops (a :: l) ⊆ a :: l := (survivors_sublist _).subset
    rw [← List.cons_append, survivors_concat, List.foldl_append]
    cases hs : survivors drops (a :: l) with
    | nil =>
      rw [hs] at hhead
      cases hhead
    | cons best rest =>
      rw [hs] at hhead hsorted hsub
      refine ⟨?_, sorted_concat htrans (fun y hy => htotal x hx y (hmem y (hsub hy))) hsorted⟩
      have hfold := Option.some.inj hhead
      rw [← hfold, List.foldl_cons, List.foldl_nil]
      by_cases hdrop : drops x best = true
      · have hall : (best :: rest).rdropWhile (drops x) = [] := by
          rw [List.rdropWhile_eq_nil_iff]
          intro y hy
          rcases List.mem_cons.mp hy with rfl | hy
          · exact hdrop
          · exact htrans _ _ _ hdrop ((List.pairwise_cons.mp hsorted).1 y hy)
        rw [hall, if_pos hdrop]
        rfl
      · rw [if_neg hdrop, rdropWhile_cons, if_neg fun h => hdrop h.2]
        rfl

end
end QuantAgent
