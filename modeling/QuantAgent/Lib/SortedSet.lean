import QuantAgent.Lib.PyList

namespace QuantAgent
set_option autoImplicit true

/-- `sorted(set(l))` -/
def sortedSet [LinearOrder α] (l : List α) : List α := pySorted (fun a b => decide (a < b)) l.dedup

section
variable [LinearOrder α]

@[simp] theorem mem_sortedSet {l : List α} : a ∈ sortedSet l ↔ a ∈ l := by
  rw [sortedSet, mem_pySorted, List.mem_dedup]

theorem nodup_sortedSet (l : List α) : (sortedSet l).Nodup :=
  (pySorted_perm _ _).nodup_iff.mpr l.nodup_dedup

theorem sortedSet_pairwise (l : List α) : (sortedSet l).Pairwise (· < ·) := by
  have hle : (sortedSet l).Pairwise (· ≤ ·) := pySorted_pairwise (fun _ _ => rfl) l.dedup
  exact (hle.and (nodup_sortedSet l)).imp fun h => lt_of_le_of_ne h.1 h.2

/-- A strictly sorted list is the sorted set of any list with its members. -/
theorem sortedSet_eq {l m : List α} (hm : m.Pairwise (· < ·)) (h : ∀ a, a ∈ l ↔ a ∈ m) :
    sortedSet l = m :=
  (sortedSet_pairwise l).eq_of_mem_iff hm fun {a} => mem_sortedSet.trans (h a)

theorem length_sortedSet (l : List α) : (sortedSet l).length = l.dedup.length :=
  (pySorted_perm _ _).length_eq

/-- What is at most the entry at `k` of a strictly sorted list are the entries up to it. -/
theorem filter_le_eq_take {l : List α} (hl : l.Pairwise (· < ·)) (hk : l[k]? = some a) :
    l.filter (· ≤ a) = l.take (k + 1) := by
  induction l generalizing k with
  | nil => cases hk
  | cons b l ih =>
    obtain ⟨hb, hl⟩ := List.pairwise_cons.mp hl
    cases k with
    | zero =>
      cases hk
      have hrest : l.filter (· ≤ a) = [] := by
        rw [List.filter_eq_nil_iff]
        intro c hc
        simpa using hb c hc
      rw [List.filter_cons_of_pos (by simp), hrest, List.take_succ_cons, List.take_zero]
    | succ k =>
      rw [List.getElem?_cons_succ] at hk
      have hle := (hb a (List.mem_of_getElem? hk)).le
      rw [List.filter_cons_of_pos (by simpa using hle), ih hl hk, List.take_succ_cons]

end
end QuantAgent
