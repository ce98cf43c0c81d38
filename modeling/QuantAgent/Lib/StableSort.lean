import QuantAgent.Lib.Grouped

namespace QuantAgent
set_option autoImplicit true

section Filtered
variable [LinearOrder κ] {lt : α → α → Bool} {key : α → κ}

/-- Items that come first come out of a stable insertion in their own order. -/
theorem filter_orderedInsert {r : α → α → Prop} [DecidableRel r] [IsTrans α r] (p : α → Bool) (a : α)
    {l : List α} (hl : l.Pairwise r) :
    (l.orderedInsert r a).filter p = if p a then (l.filter p).orderedInsert r a else l.filter p := by
  induction l with
  | nil => cases hp : p a <;> simp [hp]
  | cons b l ih =>
    rw [List.pairwise_cons] at hl
    by_cases hab : r a b
    · have hfront : ∀ m : List α, (∀ x ∈ m, r a x) → m.orderedInsert r a = a :: m := by
        intro m hm
        cases m with
        | nil => rfl
        | cons x m => exact List.orderedInsert_cons_of_le r m (hm x List.mem_cons_self)
      have hall : ∀ x ∈ (b :: l).filter p, r a x := by
        intro x hx
        rcases List.mem_cons.mp (List.mem_filter.mp hx).1 with rfl | hx
        · exact hab
        · exact IsTrans.trans a b x hab (hl.1 x hx)
      rw [List.orderedInsert_cons_of_le r l hab, List.filter_cons, hfront _ hall]
    · have hskip : (b :: l).orderedInsert r a = b :: l.orderedInsert r a :=
        List.orderedInsert_of_not_le r l hab
      rw [hskip, List.filter_cons, List.filter_cons, ih hl.2]
      by_cases hb : p b
      · by_cases ha : p a
        · rw [if_pos hb, if_pos hb, if_pos ha, if_pos ha, List.orderedInsert_of_not_le r _ hab]
        · rw [if_pos hb, if_pos hb, if_neg ha, if_neg ha]
      · rw [if_neg hb, if_neg hb]

/-- A stable sort of part of a list is that part of the sorted list. -/
theorem filter_pySorted (hkey : ∀ a b, lt a b = decide (key a < key b)) (p : α → Bool) (l : List α) :
    (pySorted lt l).filter p = pySorted lt (l.filter p) := by
  have hle : ∀ a b, (!lt b a) = true ↔ key a ≤ key b := by simp [hkey]
  have htrans : IsTrans α fun a b => (!lt b a) = true :=
    ⟨fun a b c => by simpa only [hle] using le_trans⟩
  induction l with
  | nil => rfl
  | cons a l ih =>
    have hsorted : (pySorted lt l).Pairwise fun a b => (!lt b a) = true :=
      (pySorted_pairwise hkey l).imp fun {a b} hab => (hle a b).mpr hab
    change (List.orderedInsert _ a (pySorted lt l)).filter p = _
    rw [filter_orderedInsert p a hsorted, ih, List.filter_cons]
    split <;> rfl

/-- Where one part of a list is below the other by its keys, it is sorted first. -/
theorem pySorted_below (hkey : ∀ a b, lt a b = decide (key a < key b)) {p : α → Bool} {l : List α}
    (hbelow : ∀ a ∈ l, ∀ b ∈ l, p a = true → p b = false → key a < key b) :
    pySorted lt l = pySorted lt (l.filter p) ++ pySorted lt (l.filter fun a => !p a) := by
  have hmono : (pySorted lt l).Pairwise fun a b => p b = true → p a = true := by
    refine (pySorted_pairwise hkey l).imp_of_mem ?_
    intro a b ha hb hle hpb
    by_contra hpa
    have ha : a ∈ l := (mem_pySorted lt).mp ha
    have hb : b ∈ l := (mem_pySorted lt).mp hb
    exact absurd hle (not_le.mpr (hbelow b hb a ha hpb (Bool.not_eq_true _ ▸ hpa)))
  rw [← filter_pySorted hkey, ← filter_pySorted hkey]
  exact (filter_append_filter_not hmono).symm

end Filtered

section Runs
variable [LinearOrder κ]

theorem le_getLast {run : List (κ × α)} (h : run.Pairwise fun e e' => e.1 ≤ e'.1) (hne : run ≠ [])
    (he : e ∈ run) : e.1 ≤ (run.getLast hne).1 := by
  rw [← List.dropLast_append_getLast hne, List.pairwise_append] at h
  rw [← List.dropLast_append_getLast hne, List.mem_append, List.mem_singleton] at he
  rcases he with hbefore | rfl
  · exact h.2.2 e hbefore _ (List.mem_singleton_self _)
  · exact le_rfl

theorem head_le {run : List (κ × α)} (h : run.Pairwise fun e e' => e.1 ≤ e'.1) (hne : run ≠ [])
    (he : e ∈ run) : (run.head hne).1 ≤ e.1 := by
  cases run with
  | nil => cases he
  | cons first rest =>
    rcases List.mem_cons.mp he with rfl | hrest
    · exact le_rfl
    · exact (List.pairwise_cons.mp h).1 e hrest

/-- The items of a run share a key. -/
theorem keyRuns_same {keys : List κ} {xs : List α} (hrun : run ∈ keyRuns keys xs) (he : e ∈ run)
    (he' : e' ∈ run) : e.1 = e'.1 := by
  have htrans : IsTrans (κ × α) fun a b => decide (a.1 = b.1) = true :=
    ⟨fun a b c hab hbc => decide_eq_true ((of_decide_eq_true hab).trans (of_decide_eq_true hbc))⟩
  have hpairs : run.Pairwise fun a b => a.1 = b.1 :=
    (List.isChain_iff_pairwise.mp (List.isChain_of_mem_splitBy hrun)).imp of_decide_eq_true
  have hsymm : Std.Symm fun a b : κ × α => a.1 = b.1 := ⟨fun _ _ => Eq.symm⟩
  exact List.Pairwise.forall_of_forall (R := fun a b : κ × α => a.1 = b.1) (fun _ _ => rfl) hpairs he he'

/-- An item of a run of places has the key of its place. -/
theorem getElem?_of_mem_keyRuns {keys : List κ} (hrun : run ∈ keyRuns keys (List.range n))
    (he : e ∈ run) : keys[e.2]? = some e.1 := by
  have hmem : e ∈ (keyRuns keys (List.range n)).flatten := List.mem_flatten.mpr ⟨run, hrun, he⟩
  rw [keyRuns, List.flatten_splitBy] at hmem
  obtain ⟨j, hj, heq⟩ := List.getElem_of_mem hmem
  rw [List.getElem_zip, List.getElem_range] at heq
  rw [← heq]
  exact List.getElem?_eq_getElem _

/-- The runs of sorted keys have increasing keys. -/
theorem keyRuns_increasing {keys : List κ} {xs : List α} (hlen : keys.length = xs.length)
    (hkeys : keys.Pairwise (· ≤ ·)) :
    (keyRuns keys xs).Pairwise fun run later => ∀ e ∈ run, ∀ e' ∈ later, e.1 < e'.1 := by
  have hsorted : (keys.zip xs).Pairwise fun e e' => e.1 ≤ e'.1 := by
    rw [← List.map_fst_zip hlen.le] at hkeys
    exact List.pairwise_map.mp hkeys
  have hparts : (keyRuns keys xs).flatten.Pairwise fun e e' => e.1 ≤ e'.1 := by
    rw [keyRuns, List.flatten_splitBy]
    exact hsorted
  obtain ⟨hinside, hacross⟩ := List.pairwise_flatten.mp hparts
  have hchain := List.isChain_getLast_head_splitBy (fun a b : κ × α => decide (a.1 = b.1)) (keys.zip xs)
  change (keyRuns keys xs).IsChain _ at hchain
  generalize keyRuns keys xs = runs at *
  have hstep : runs.IsChain fun run later =>
      (run ≠ [] ∧ later ≠ []) ∧ ∀ e ∈ run, ∀ e' ∈ later, e.1 < e'.1 := by
    rw [List.isChain_iff_getElem] at hchain ⊢
    intro i hi
    obtain ⟨hlast, hhead, hdiffer⟩ := hchain i hi
    have hbetween := List.pairwise_iff_getElem.mp hacross i (i + 1) (Nat.lt_of_succ_lt hi) hi
      (Nat.lt_succ_self i)
    have hlt : (runs[i].getLast hlast).1 < (runs[i + 1].head hhead).1 :=
      lt_of_le_of_ne (hbetween _ (List.getLast_mem hlast) _ (List.head_mem hhead))
        (of_decide_eq_false hdiffer)
    refine ⟨⟨hlast, hhead⟩, ?_⟩
    intro e he e' he'
    have hbefore := le_getLast (hinside _ (List.getElem_mem _)) hlast he
    have hafter := head_le (hinside _ (List.getElem_mem _)) hhead he'
    exact (hbefore.trans_lt hlt).trans_le hafter
  have htrans : IsTrans (List (κ × α)) fun run later =>
      (run ≠ [] ∧ later ≠ []) ∧ ∀ e ∈ run, ∀ e' ∈ later, e.1 < e'.1 := by
    constructor
    rintro a b c ⟨⟨ha, hb⟩, hab⟩ ⟨⟨-, hc⟩, hbc⟩
    refine ⟨⟨ha, hc⟩, ?_⟩
    intro e he e' he'
    exact (hab e he _ (List.head_mem hb)).trans (hbc _ (List.head_mem hb) e' he')
  exact (List.isChain_iff_pairwise.mp hstep).imp And.right

end Runs
end QuantAgent
