import QuantAgent.Lib.Causal
import Mathlib.Data.List.SplitBy

namespace QuantAgent
set_option autoImplicit true

section Scatter
variable [DecidableEq κ]

/-- The values of one group, in order. -/
def gather (keys : List κ) (k : κ) (xs : List α) : List α :=
  ((keys.zip xs).filter fun e => decide (e.1 = k)).map Prod.snd

/-- `for indices in groups: out[indices] = g(xs[indices])`, from an `out` full of `fill`. -/
def scatter (fill : β) (keys : List κ) (g : List α → List β) (xs : List α) : List β :=
  keys.zipIdx.map fun e => ((g (gather keys e.1 xs))[(keys.take e.2).count e.1]?).getD fill

@[simp] theorem length_scatter (fill : β) (keys : List κ) (g : List α → List β) (xs : List α) :
    (scatter fill keys g xs).length = keys.length := by simp [scatter]

theorem scatter_singleton (fill : β) (k : κ) (g : List α → List β) (x : α) :
    scatter fill [k] g [x] = [((g [x])[0]?).getD fill] := by
  simp [scatter, gather]

theorem length_gather {keys : List κ} {xs : List α} (h : xs.length = keys.length) (k : κ) :
    (gather keys k xs).length = keys.count k := by
  induction keys generalizing xs with
  | nil => simp [gather]
  | cons j keys ih =>
    cases xs with
    | nil => cases h
    | cons x xs =>
      have ih := ih (Nat.succ.inj h)
      unfold gather at ih ⊢
      by_cases hj : j = k <;> simp [hj] at ih ⊢ <;> omega

theorem gather_append {keys keys' : List κ} {xs xs' : List α} (h : keys.length = xs.length) (k : κ) :
    gather (keys ++ keys') k (xs ++ xs') = gather keys k xs ++ gather keys' k xs' := by
  simp [gather, List.zip_append h]

theorem gather_take {keys : List κ} {xs : List α} (h : xs.length = keys.length) (n : ℕ) (k : κ) :
    gather (keys.take n) k (xs.take n) = (gather keys k xs).take ((keys.take n).count k) := by
  have hlen : (keys.take n).length = (xs.take n).length := by simp [h]
  have hsplit : gather (keys.take n ++ keys.drop n) k (xs.take n ++ xs.drop n) =
      gather (keys.take n) k (xs.take n) ++ gather (keys.drop n) k (xs.drop n) := gather_append hlen k
  rw [List.take_append_drop, List.take_append_drop] at hsplit
  rw [hsplit, ← length_gather hlen.symm k, List.take_left]

theorem gather_map (f : α → β) (keys : List κ) (k : κ) (xs : List α) :
    gather keys k (xs.map f) = (gather keys k xs).map f := by
  simp only [gather, List.zip_map_right, List.filter_map, List.map_map]
  rfl

/-- The places of a group. -/
theorem gather_range (keys : List κ) (k : κ) :
    gather keys k (List.range keys.length) =
      (List.range keys.length).filter fun i => decide (keys[i]? = some k) := by
  induction keys using List.reverseRecOn with
  | nil => rfl
  | append_singleton keys key ih =>
    have hfront : (List.range keys.length).filter (fun i => decide ((keys ++ [key])[i]? = some k)) =
        (List.range keys.length).filter fun i => decide (keys[i]? = some k) := by
      apply List.filter_congr
      intro i hi
      rw [List.getElem?_append_left (List.mem_range.mp hi)]
    rw [List.length_append, List.length_singleton, List.range_succ,
      gather_append (List.length_range).symm, ih, List.filter_append, hfront]
    congr 1
    by_cases hk : key = k
    · simp [gather, hk]
    · simp [gather, hk]

/-- An item counts among the first `n` if its place is before `n`. -/
theorem count_take_lt {keys : List κ} (hi : i < n) (h : i < keys.length) :
    (keys.take i).count keys[i] < (keys.take n).count keys[i] := by
  have htake : keys.take (i + 1) = keys.take i ++ [keys[i]] := by
    rw [List.take_add_one, List.getElem?_eq_getElem h, Option.toList_some]
  have hsub : (keys.take (i + 1)).Sublist (keys.take n) := by
    have hfront := List.take_sublist (i + 1) (keys.take n)
    rwa [List.take_take, min_eq_left hi] at hfront
  have hmono := hsub.count_le keys[i]
  rw [htake, List.count_append, List.count_singleton_self] at hmono
  exact hmono

/-- What a causal builder writes for the first rows only depends on them. -/
theorem scatter_take (fill : β) {g : List α → List β} (hg : Causal g) {keys : List κ} {xs : List α}
    (h : xs.length = keys.length) (n : ℕ) :
    (scatter fill keys g xs).take n = scatter fill (keys.take n) g (xs.take n) := by
  apply List.ext_getElem
  · simp
  · intro i hi hi'
    have hin : i < n ∧ i < keys.length := by simpa using hi
    simp only [scatter, List.getElem_take, List.getElem_map, List.getElem_zipIdx, Nat.zero_add,
      List.take_take, min_eq_left hin.1.le]
    rw [gather_take h, hg.take, List.getElem?_take_of_lt]
    exact count_take_lt hin.1 hin.2

/-- What a causal builder writes for a row is its last value on the rows of the group so far. -/
theorem getElem?_scatter (fill : β) {g : List α → List β} (hg : Causal g) {keys : List κ} {xs : List α}
    (h : xs.length = keys.length) (hi : keys[i]? = some k) :
    (scatter fill keys g xs)[i]? =
      some ((g (gather (keys.take (i + 1)) k (xs.take (i + 1)))).getLast?.getD fill) := by
  have hlt : i < keys.length := (List.getElem?_eq_some_iff.mp hi).1
  have hkey : keys[i] = k := (List.getElem?_eq_some_iff.mp hi).2
  have htake : keys.take (i + 1) = keys.take i ++ [k] := by
    rw [List.take_add_one, hi, Option.toList_some]
  have hlen : (gather (keys.take (i + 1)) k (xs.take (i + 1))).length = (keys.take i).count k + 1 := by
    rw [length_gather (by simp [h]), htake, List.count_append, List.count_singleton_self]
  have hplace : (scatter fill keys g xs)[i]? =
      some (((g (gather keys k xs))[(keys.take i).count k]?).getD fill) := by
    simp only [scatter, List.getElem?_map, List.getElem?_zipIdx, hi, Option.map_some, Nat.zero_add]
  have hlast : (g (gather (keys.take (i + 1)) k (xs.take (i + 1)))).getLast? =
      (g (gather keys k xs))[(keys.take i).count k]? := by
    rw [List.getLast?_eq_getElem?, hg.length, hlen, Nat.add_sub_cancel, gather_take h, hg.take,
      List.getElem?_take_of_lt]
    have hcount := count_take_lt (Nat.lt_succ_self i) hlt
    rwa [hkey] at hcount
  rw [hplace, hlast]

end Scatter

/-- No run of keys reaches over the place `n`. -/
def RunCut (keys : List κ) (n : ℕ) : Prop :=
  ∀ a ∈ (keys.take n).getLast?, ∀ b ∈ (keys.drop n).head?, a ≠ b

theorem RunCut.of_length_le {keys : List κ} (h : keys.length ≤ n) : RunCut keys n := by
  intro a _ b hb
  rw [List.drop_eq_nil_of_le h] at hb
  cases hb

section Runs
variable [DecidableEq κ]

/-- The runs of equal consecutive keys, with their items. -/
def keyRuns (keys : List κ) (xs : List α) : List (List (κ × α)) :=
  (keys.zip xs).splitBy fun a b => decide (a.1 = b.1)

/-- `for start, end in ranges: out[start:end] = g(xs[start:end])` -/
def byRun (keys : List κ) (g : List α → List β) (xs : List α) : List β :=
  (keyRuns keys xs).flatMap fun run => g (run.map Prod.snd)

theorem keyRuns_split {keys : List κ} {xs : List α} (hlen : xs.length = keys.length)
    (h : RunCut keys n) :
    keyRuns keys xs = keyRuns (keys.take n) (xs.take n) ++ keyRuns (keys.drop n) (xs.drop n) := by
  have hzip : keys.zip xs = (keys.take n).zip (xs.take n) ++ (keys.drop n).zip (xs.drop n) := by
    rw [← List.zip_append (by simp [hlen]), List.take_append_drop, List.take_append_drop]
  unfold keyRuns
  rw [hzip]
  apply List.splitBy_append
  intro a ha b hb
  apply decide_eq_false
  apply h
  · have hlast := List.getLast?_map (f := Prod.fst) (l := (keys.take n).zip (xs.take n))
    rw [List.map_fst_zip (by simp [hlen]), Option.mem_def.mp ha] at hlast
    exact hlast
  · have hhead := List.head?_map (f := Prod.fst) (l := (keys.drop n).zip (xs.drop n))
    rw [List.map_fst_zip (by simp [hlen]), Option.mem_def.mp hb] at hhead
    exact hhead

theorem length_byRun {keys : List κ} {xs : List α} {g : List α → List β}
    (hg : ∀ l, (g l).length = l.length) (hlen : xs.length = keys.length) :
    (byRun keys g xs).length = keys.length := by
  have hflat : ((keyRuns keys xs).flatMap fun run => run).length = keys.length := by
    unfold keyRuns
    rw [List.flatMap_id', List.flatten_splitBy]
    simp [hlen]
  rw [← hflat, byRun]
  simp [List.length_flatMap, hg]

theorem byRun_take {keys : List κ} {xs : List α} {g : List α → List β}
    (hg : ∀ l, (g l).length = l.length) (hlen : xs.length = keys.length) (h : RunCut keys n) :
    (byRun keys g xs).take n = byRun (keys.take n) g (xs.take n) := by
  have hfront : (byRun (keys.take n) g (xs.take n)).length = (keys.take n).length :=
    length_byRun hg (by simp [hlen])
  have hsplit : byRun keys g xs =
      byRun (keys.take n) g (xs.take n) ++ byRun (keys.drop n) g (xs.drop n) := by
    unfold byRun
    rw [keyRuns_split hlen h, List.flatMap_append]
  rw [hsplit, List.take_append, hfront]
  rw [List.take_of_length_le (by simp [hfront])]
  by_cases hn : n ≤ keys.length
  · simp [hn]
  · have hdrop : keys.drop n = [] := List.drop_eq_nil_of_le (not_le.mp hn).le
    have hnil : byRun (keys.drop n) g (xs.drop n) = [] := by simp [hdrop, byRun, keyRuns]
    simp [hnil]

end Runs
end QuantAgent
