import Mathlib.Data.List.Basic
import Mathlib.Tactic

namespace QuantAgent
set_option autoImplicit true

/-- A reader of a log that keeps its last `cap` items reads it when it has the given lengths.
The item at `i` reaches the reader when the first read after it still finds it. -/
def reaches (cap : ℕ) (reads : List ℕ) (i : ℕ) : Bool :=
  match reads.find? fun n => i < n with
  | some n => decide (n - cap ≤ i)
  | none => false

/-- The items of a log that reach a reader, in order. -/
def collected (cap : ℕ) (reads : List ℕ) (log : List α) : List α :=
  (log.zipIdx.filter fun e => reaches cap reads e.2).map Prod.fst

theorem reaches_of_unread (h : ∀ n ∈ reads, n ≤ i) : reaches cap reads i = false := by
  have hnone : reads.find? (fun n => i < n) = none := by
    rw [List.find?_eq_none]
    intro n hn hlt
    have hle := h n hn
    have hlt := of_decide_eq_true hlt
    omega
  rw [reaches, hnone]

theorem reaches_old (h : n ∈ reads) (hi : i < n) : reaches cap (reads ++ [m]) i = reaches cap reads i := by
  obtain ⟨k, hk⟩ : ∃ k, reads.find? (fun n => i < n) = some k := by
    rw [← Option.isSome_iff_exists, List.find?_isSome]
    exact ⟨n, h, decide_eq_true hi⟩
  rw [reaches, reaches, List.find?_append, hk]
  rfl

theorem reaches_new (h : ∀ n ∈ reads, n ≤ i) (hi : i < m) :
    reaches cap (reads ++ [m]) i = decide (m - cap ≤ i) := by
  have hnone : reads.find? (fun n => i < n) = none := by
    rw [List.find?_eq_none]
    intro n hn hlt
    have hle := h n hn
    have hlt := of_decide_eq_true hlt
    omega
  rw [reaches, List.find?_append, hnone]
  simp [hi]

theorem zipIdx_filter_from (log : List α) (k c : ℕ) :
    ((log.zipIdx k).filter fun e => decide (c ≤ e.2)).map Prod.fst = log.drop (c - k) := by
  induction log generalizing k with
  | nil => simp
  | cons a log ih =>
    rw [List.zipIdx_cons]
    by_cases hk : c ≤ k
    · have hzero : c - k = 0 := by omega
      have hzero' : c - (k + 1) = 0 := by omega
      rw [List.filter_cons_of_pos (by simpa using hk), List.map_cons, ih, hzero, hzero']
      rfl
    · have hsucc : c - k = c - (k + 1) + 1 := by omega
      rw [List.filter_cons_of_neg (by simpa using hk), ih, hsucc, List.drop_succ_cons]

theorem zipIdx_index_lt {log : List α} (h : e ∈ log.zipIdx k) : k ≤ e.2 ∧ e.2 < k + log.length := by
  obtain ⟨a, i⟩ := e
  obtain ⟨hge, hlt, -⟩ := List.mem_zipIdx h
  exact ⟨hge, hlt⟩

/-- An item nobody has read since reaches no reader yet. -/
theorem collected_publish (h : ∀ n ∈ reads, n ≤ log.length) (a : α) :
    collected cap reads (log ++ [a]) = collected cap reads log := by
  have hlast : reaches cap reads log.length = false := reaches_of_unread h
  unfold collected
  rw [List.zipIdx_append, List.filter_append, List.zipIdx_singleton, Nat.zero_add,
    List.filter_cons_of_neg (by simpa using hlast), List.filter_nil, List.append_nil]

/-- A read adds what is kept and lies past the last read. -/
theorem collected_read {log : List α} (hlast : ∀ n ∈ reads, n ≤ last)
    (hmem : last = 0 ∨ last ∈ reads) (hlen : last ≤ log.length) :
    collected cap (reads ++ [log.length]) log =
      collected cap reads log ++ log.drop (max last (log.length - cap)) := by
  have hsplit : log.zipIdx = (log.take last).zipIdx ++ (log.drop last).zipIdx last := by
    conv_lhs => rw [← List.take_append_drop last log]
    rw [List.zipIdx_append, List.length_take, min_eq_left hlen, Nat.zero_add]
  have hold : ∀ e ∈ (log.take last).zipIdx,
      reaches cap (reads ++ [log.length]) e.2 = reaches cap reads e.2 := by
    intro e he
    have hlt := (zipIdx_index_lt he).2
    rw [List.length_take, min_eq_left hlen] at hlt
    rcases hmem with hzero | hmem
    · omega
    · exact reaches_old hmem (by omega)
  have hunread : ∀ e ∈ (log.drop last).zipIdx last, reaches cap reads e.2 = false := by
    intro e he
    have hge := (zipIdx_index_lt he).1
    exact reaches_of_unread fun n hn => (hlast n hn).trans hge
  have hnew : ∀ e ∈ (log.drop last).zipIdx last,
      reaches cap (reads ++ [log.length]) e.2 = decide (log.length - cap ≤ e.2) := by
    intro e he
    obtain ⟨hge, hlt⟩ := zipIdx_index_lt he
    rw [List.length_drop] at hlt
    exact reaches_new (fun n hn => (hlast n hn).trans hge) (by omega)
  have hnone : ((log.drop last).zipIdx last).filter (fun e => reaches cap reads e.2) = [] := by
    rw [List.filter_eq_nil_iff]
    intro e he
    simp [hunread e he]
  have hdrop : last + (log.length - cap - last) = max last (log.length - cap) := by omega
  unfold collected
  rw [hsplit, List.filter_append, List.filter_append, hnone, List.append_nil,
    List.filter_congr hold, List.filter_congr hnew, List.map_append, zipIdx_filter_from,
    List.drop_drop, hdrop]

end QuantAgent
