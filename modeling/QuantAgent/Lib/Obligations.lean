import Mathlib.Data.List.Nodup
import Mathlib.Tactic

namespace QuantAgent
set_option autoImplicit true

/-- A log whose entries open and close keys: every key is opened once, closed only after it was
opened, and the opened keys are the closed ones together with the pending ones. -/
structure Obligations (opened closed : β → Option κ) (log : List β) (pending : List κ) : Prop where
  balance : (log.filterMap closed ++ pending).Perm (log.filterMap opened)
  nodup : (log.filterMap opened).Nodup
  opened_first : ∀ i b k, log[i]? = some b → closed b = some k →
    k ∈ (log.take i).filterMap opened

namespace Obligations
variable {opened closed : β → Option κ}

theorem nil : Obligations opened closed [] [] :=
  ⟨.nil, .nil, fun i b k h => by cases h⟩

theorem pending_opened (h : Obligations opened closed log pending) (hk : k ∈ pending) :
    k ∈ log.filterMap opened :=
  h.balance.mem_iff.mp (List.mem_append_right _ hk)

/-- Entries that close pending keys and open none. -/
theorem close (h : Obligations opened closed log pending) (ho : new.filterMap opened = [])
    (hc : (new.filterMap closed ++ rest).Perm pending) :
    Obligations opened closed (log ++ new) rest where
  balance := by
    rw [List.filterMap_append, List.filterMap_append, ho, List.append_nil, List.append_assoc]
    exact (hc.append_left _).trans h.balance
  nodup := by
    rw [List.filterMap_append, ho, List.append_nil]
    exact h.nodup
  opened_first i b k hi hb := by
    rcases Nat.lt_or_ge i log.length with hlt | hge
    · rw [List.getElem?_append_left hlt] at hi
      rw [List.take_append_of_le_length hlt.le]
      exact h.opened_first i b k hi hb
    · rw [List.getElem?_append_right hge] at hi
      have hk : k ∈ new.filterMap closed :=
        List.mem_filterMap.mpr ⟨b, List.mem_of_getElem? hi, hb⟩
      rw [List.take_append, List.take_of_length_le hge, List.filterMap_append]
      exact List.mem_append_left _ (h.pending_opened (hc.mem_iff.mp (List.mem_append_left _ hk)))

/-- Entries that neither open nor close. -/
theorem neutral (h : Obligations opened closed log pending) (ho : new.filterMap opened = [])
    (hc : new.filterMap closed = []) : Obligations opened closed (log ++ new) pending :=
  h.close ho (by rw [hc, List.nil_append])

/-- Entries that open fresh keys and close none. -/
theorem extend (h : Obligations opened closed log pending) (hc : new.filterMap closed = [])
    (hn : (new.filterMap opened).Nodup)
    (hd : ∀ k ∈ new.filterMap opened, k ∉ log.filterMap opened) :
    Obligations opened closed (log ++ new) (pending ++ new.filterMap opened) where
  balance := by
    rw [List.filterMap_append, List.filterMap_append, hc, List.append_nil, ← List.append_assoc]
    exact h.balance.append_right _
  nodup := by
    rw [List.filterMap_append, List.nodup_append]
    exact ⟨h.nodup, hn, fun a ha b hb hab => hd b hb (hab ▸ ha)⟩
  opened_first i b k hi hb := by
    rcases Nat.lt_or_ge i log.length with hlt | hge
    · rw [List.getElem?_append_left hlt] at hi
      rw [List.take_append_of_le_length hlt.le]
      exact h.opened_first i b k hi hb
    · rw [List.getElem?_append_right hge] at hi
      have hk : k ∈ new.filterMap closed :=
        List.mem_filterMap.mpr ⟨b, List.mem_of_getElem? hi, hb⟩
      rw [hc] at hk
      cases hk

theorem index_unique {f : β → Option κ} {log : List β} {i j : ℕ} (h : (log.filterMap f).Nodup)
    (hi : log[i]? = some b) (hb : f b = some k) (hj : log[j]? = some c) (hc : f c = some k) :
    i = j := by
  induction log generalizing i j with
  | nil => cases hi
  | cons a log ih =>
    have hmem : ∀ {n : ℕ} {d}, log[n]? = some d → f d = some k → k ∈ log.filterMap f :=
      fun hn hd => List.mem_filterMap.mpr ⟨_, List.mem_of_getElem? hn, hd⟩
    cases i with
    | zero =>
      cases j with
      | zero => rfl
      | succ j =>
        cases hi
        rw [List.filterMap_cons_some hb, List.nodup_cons] at h
        exact absurd (hmem hj hc) h.1
    | succ i =>
      cases j with
      | zero =>
        cases hj
        rw [List.filterMap_cons_some hc, List.nodup_cons] at h
        exact absurd (hmem hi hb) h.1
      | succ j =>
        have hn : (log.filterMap f).Nodup := by
          cases ha : f a with
          | none => rwa [List.filterMap_cons_none ha] at h
          | some k' =>
            rw [List.filterMap_cons_some ha] at h
            exact (List.nodup_cons.mp h).2
        exact congrArg Nat.succ (ih hn hi hj)

/-- Every closing entry comes after the entry that opened its key. -/
theorem opened_of_closed {j : ℕ} (h : Obligations opened closed log pending) (hj : log[j]? = some c)
    (hc : closed c = some k) : ∃ i b, i < j ∧ log[i]? = some b ∧ opened b = some k := by
  obtain ⟨b, hb, hk⟩ := List.mem_filterMap.mp (h.opened_first j c k hj hc)
  obtain ⟨i, hi⟩ := List.mem_iff_getElem?.mp hb
  have hij : i < j := by
    by_contra hge
    rw [List.getElem?_take_eq_none (not_lt.mp hge)] at hi
    cases hi
  rw [List.getElem?_take_of_lt hij] at hi
  exact ⟨i, b, hij, hi, hk⟩

/-- With nothing pending, every opened key is closed exactly once, later. -/
theorem closed_once {i : ℕ} (h : Obligations opened closed log []) (hi : log[i]? = some b)
    (hb : opened b = some k) :
    ∃ j c, i < j ∧ log[j]? = some c ∧ closed c = some k ∧
      ∀ j' c', log[j']? = some c' → closed c' = some k → j' = j := by
  have hperm : (log.filterMap closed).Perm (log.filterMap opened) := by
    simpa using h.balance
  have hk : k ∈ log.filterMap opened := List.mem_filterMap.mpr ⟨b, List.mem_of_getElem? hi, hb⟩
  obtain ⟨c, hc, hck⟩ := List.mem_filterMap.mp (hperm.mem_iff.mpr hk)
  obtain ⟨j, hj⟩ := List.mem_iff_getElem?.mp hc
  obtain ⟨i', b', hlt, hi', hb'⟩ := h.opened_of_closed hj hck
  have hii : i' = i := index_unique h.nodup hi' hb' hi hb
  refine ⟨j, c, hii ▸ hlt, hj, hck, ?_⟩
  intro j' c' hj' hck'
  exact index_unique (hperm.nodup_iff.mpr h.nodup) hj' hck' hj hck

end Obligations
end QuantAgent
