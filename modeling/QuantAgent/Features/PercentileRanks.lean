import QuantAgent.Lib.MonotoneFloat
import QuantAgent.Lib.Dict
import QuantAgent.Lib.PyList
import Mathlib.Data.List.TakeWhile
import Mathlib.Data.String.Basic

namespace QuantAgent.Features
set_option autoImplicit true

section
variable {F : Type} [PyFloat F]

/-- `(a[1], a[0]) < (b[1], b[0])` -/
def rankedBefore (a b : String × F) : Bool :=
  if a.2 == b.2 then decide (a.1 < b.1) else decide (a.2 < b.2)

/-- The sweep over the sorted values, one run of equal values after the other. -/
def rankRuns (last : ℕ) (start : ℕ) (output : Dict String F) :
    List (String × F) → Dict String F
  | [] => output
  | first :: rest =>
    let run := first :: rest.takeWhile fun item => item.2 == first.2
    let stop := start + run.length
    let averagePosition := PyFloat.ofInt ((start : ℤ) + stop - 1) / PyFloat.ofInt 2
    let percentile : F := averagePosition / PyFloat.ofInt last
    rankRuns last stop (run.foldl (fun output item => output.insert item.1 percentile) output)
      (rest.dropWhile fun item => item.2 == first.2)
termination_by ordered => ordered.length
decreasing_by
  exact Nat.lt_succ_of_le (List.dropWhile_sublist _).length_le

/-- `_percentile_ranks` -/
def percentileRanksByName (values : List (String × F)) : Dict String F :=
  match pySorted rankedBefore values with
  | [] => .empty
  | [only] => Dict.empty.insert only.1 1
  | ordered => rankRuns (ordered.length - 1) 0 .empty ordered

/-- The places before those of the entries with this value. -/
def countBelow (values : List (String × F)) (v : F) : ℕ := values.countP fun item => item.2 < v

/-- The places up to the last of the entries with this value. -/
def countUpTo (values : List (String × F)) (v : F) : ℕ := values.countP fun item => item.2 ≤ v

/-- The mean of the sorted places of the entries with this value, over the last place. -/
def averageRank (values : List (String × F)) (v : F) : F :=
  if values.length = 1 then 1
  else PyFloat.ofInt ((countBelow values v : ℤ) + countUpTo values v - 1) / PyFloat.ofInt 2 /
    PyFloat.ofInt (values.length - 1 : ℕ)

variable [MonotoneFloat F] {values seen ordered rest : List (String × F)}
open MonotoneFloat

/-- What the sweep sorts by. -/
def rankKey (item : String × F) : ℚ ×ₗ String := toLex (value item.2, item.1)

theorem rankKey_injective : Function.Injective (rankKey (F := F)) := by
  rintro ⟨a, v⟩ ⟨b, w⟩ h
  obtain ⟨hvalue, hname⟩ := Prod.mk.inj (toLex.injective h)
  exact Prod.ext hname (value_injective hvalue)

theorem rankedBefore_eq (a b : String × F) : rankedBefore a b = decide (rankKey a < rankKey b) := by
  have hkey : rankKey a < rankKey b ↔ value a.2 < value b.2 ∨ value a.2 = value b.2 ∧ a.1 < b.1 :=
    Prod.Lex.toLex_lt_toLex
  rw [rankedBefore, Bool.eq_iff_iff, decide_eq_true_eq, hkey]
  by_cases hsame : a.2 = b.2
  · rw [if_pos ((beq_iff _ _).mpr hsame), hsame, decide_eq_true_eq]
    simp
  · have hne : value a.2 ≠ value b.2 := fun h => hsame (value_injective h)
    have hbeq : ¬(a.2 == b.2) = true := fun h => hsame ((beq_iff _ _).mp h)
    rw [if_neg hbeq, decide_eq_true_eq, lt_iff]
    simp [hne]

/-- The entries in the order of their values. -/
def Ascending (ordered : List (String × F)) : Prop :=
  ordered.Pairwise fun a b => value a.2 ≤ value b.2

theorem ascending_pySorted (values : List (String × F)) : Ascending (pySorted rankedBefore values) := by
  have hsorted := pySorted_pairwise rankedBefore_eq values
  refine hsorted.imp fun {a b} hab => ?_
  rcases Prod.Lex.toLex_le_toLex.mp hab with h | h
  · exact h.le
  · exact h.1.le

/-- The order of the input is forgotten. -/
theorem percentileRanksByName_perm {values' : List (String × F)} (h : values.Perm values') :
    percentileRanksByName values = percentileRanksByName values' := by
  have hsorted : pySorted rankedBefore values = pySorted rankedBefore values' := by
    have hperm := (pySorted_perm rankedBefore values).trans
      (h.trans (pySorted_perm rankedBefore values').symm)
    apply List.Perm.eq_of_pairwise _ (pySorted_pairwise rankedBefore_eq values)
      (pySorted_pairwise rankedBefore_eq values') hperm
    intro a b _ _ hab hba
    exact rankKey_injective (le_antisymm hab hba)
  rw [percentileRanksByName, percentileRanksByName, hsorted]

omit [MonotoneFloat F] in
theorem countBelow_perm {values' : List (String × F)} (h : (values.map Prod.snd).Perm (values'.map Prod.snd))
    (v : F) : countBelow values v = countBelow values' v := by
  have hcount := h.countP_eq fun w => decide (w < v)
  rwa [List.countP_map, List.countP_map] at hcount

omit [MonotoneFloat F] in
theorem countUpTo_perm {values' : List (String × F)} (h : (values.map Prod.snd).Perm (values'.map Prod.snd))
    (v : F) : countUpTo values v = countUpTo values' v := by
  have hcount := h.countP_eq fun w => decide (w ≤ v)
  rwa [List.countP_map, List.countP_map] at hcount

omit [MonotoneFloat F] in
theorem averageRank_perm {values' : List (String × F)}
    (h : (values.map Prod.snd).Perm (values'.map Prod.snd)) (v : F) :
    averageRank values v = averageRank values' v := by
  have hlength : values.length = values'.length := by simpa using h.length_eq
  rw [averageRank, averageRank, hlength, countBelow_perm h, countUpTo_perm h]

omit [PyFloat F] [MonotoneFloat F] in
/-- What all entries before a run meet and none after it does is counted within the run. -/
theorem countP_run {p : String × F → Bool} {before run after : List (String × F)}
    (hbefore : ∀ item ∈ before, p item = true) (hafter : ∀ item ∈ after, p item = false) :
    (before ++ run ++ after).countP p = before.length + run.countP p := by
  have hnone : after.countP p = 0 :=
    List.countP_eq_zero.mpr fun item hitem => by simp [hafter item hitem]
  rw [List.countP_append, List.countP_append, List.countP_eq_length.mpr hbefore, hnone, Nat.add_zero]

/-- The rank of a run between the smaller values and the larger ones. -/
theorem averageRank_run {run after : List (String × F)} {v : F} (hlong : 1 < (seen ++ run ++ after).length)
    (hseen : ∀ item ∈ seen, value item.2 < value v) (hrun : ∀ item ∈ run, item.2 = v)
    (hafter : ∀ item ∈ after, value v < value item.2) :
    averageRank (seen ++ run ++ after) v =
      PyFloat.ofInt ((seen.length : ℤ) + (seen.length + run.length : ℕ) - 1) / PyFloat.ofInt 2 /
        PyFloat.ofInt ((seen ++ run ++ after).length - 1 : ℕ) := by
  have hbelow : countBelow (seen ++ run ++ after) v = seen.length := by
    rw [countBelow, countP_run]
    · rw [List.countP_eq_zero.mpr, Nat.add_zero]
      intro item hitem
      rw [hrun item hitem, decide_eq_true_eq, lt_iff]
      exact lt_irrefl _
    · intro item hitem
      exact decide_eq_true ((lt_iff _ _).mpr (hseen item hitem))
    · intro item hitem
      exact decide_eq_false fun h => lt_asymm ((lt_iff _ _).mp h) (hafter item hitem)
  have hupTo : countUpTo (seen ++ run ++ after) v = seen.length + run.length := by
    rw [countUpTo, countP_run]
    · rw [List.countP_eq_length.mpr]
      intro item hitem
      rw [hrun item hitem, decide_eq_true_eq, le_iff]
    · intro item hitem
      exact decide_eq_true ((le_iff _ _).mpr (hseen item hitem).le)
    · intro item hitem
      exact decide_eq_false fun h => absurd ((le_iff _ _).mp h) (not_le.mpr (hafter item hitem))
  rw [averageRank, if_neg hlong.ne', hbelow, hupTo]

omit [PyFloat F] [MonotoneFloat F] in
theorem get?_foldl_insert_const (output : Dict String F) (percentile : F) (run : List (String × F))
    (name : String) :
    (run.foldl (fun output item => output.insert item.1 percentile) output).get? name =
      ((lastWhere (fun k => k = name) run).map fun _ => percentile).or (output.get? name) := by
  induction run generalizing output with
  | nil => rfl
  | cons item run ih =>
    rw [List.foldl_cons, ih, lastWhere_cons, Dict.get?_insert]
    cases hrun : lastWhere (fun k => k = name) run with
    | some v => rfl
    | none =>
      by_cases hname : item.1 = name
      · simp [hname]
      · have hname' : ¬name = item.1 := fun h => hname h.symm
        simp [hname, hname']

/-- In ascending order the run of the first value ends before the larger ones. -/
theorem run_split {first : String × F} (h : Ascending (first :: rest)) :
    (∀ item ∈ first :: rest.takeWhile (fun item => item.2 == first.2), item.2 = first.2) ∧
      ∀ item ∈ rest.dropWhile (fun item => item.2 == first.2), value first.2 < value item.2 := by
  constructor
  · intro item hitem
    rcases List.mem_cons.mp hitem with rfl | hitem
    · rfl
    · have hsame := List.mem_takeWhile_imp (p := fun item : String × F => item.2 == first.2) hitem
      exact (beq_iff _ _).mp hsame
  · intro item hitem
    obtain ⟨hfirst, hrest⟩ := List.pairwise_cons.mp h
    cases hdrop : rest.dropWhile (fun item => item.2 == first.2) with
    | nil =>
      rw [hdrop] at hitem
      cases hitem
    | cons larger after =>
      have hsuffix : larger :: after <:+ rest := hdrop ▸ List.dropWhile_suffix _
      have hhead := List.head?_dropWhile_not (fun item : String × F => item.2 == first.2) rest
      rw [hdrop] at hhead hitem
      have hne : ¬larger.2 = first.2 := fun h => by simp [(beq_iff _ _).mpr h] at hhead
      have hlarger : value first.2 < value larger.2 :=
        lt_of_le_of_ne (hfirst larger (hsuffix.subset (List.mem_cons_self ..)))
          fun h => hne (value_injective h.symm)
      rcases List.mem_cons.mp hitem with rfl | hitem
      · exact hlarger
      · exact hlarger.trans_le ((List.pairwise_cons.mp (hrest.sublist hsuffix.sublist)).1 item hitem)

/-- The sweep has stored the rank of the last value of each name it has passed. -/
theorem rankRuns_get? (seen : List (String × F)) (hlong : 1 < ordered.length) (hordered : ordered = seen ++ rest)
    (hascending : Ascending ordered)
    (hless : ∀ a ∈ seen, ∀ b ∈ rest, value a.2 < value b.2) {output : Dict String F}
    (houtput : ∀ name, output.get? name =
      (lastWhere (fun k => k = name) seen).map (averageRank ordered)) (name : String) :
    (rankRuns (ordered.length - 1) seen.length output rest).get? name =
      (lastWhere (fun k => k = name) ordered).map (averageRank ordered) := by
  induction hn : rest.length using Nat.strong_induction_on generalizing seen rest output with
  | _ n ih =>
  cases rest with
  | nil =>
    rw [rankRuns, houtput, hordered, List.append_nil]
  | cons first rest =>
    have hrest : Ascending (first :: rest) := by
      rw [Ascending, hordered, List.pairwise_append] at hascending
      exact hascending.2.1
    obtain ⟨hrun, hafter⟩ := run_split hrest
    have hsplit : first :: rest = (first :: rest.takeWhile fun item => item.2 == first.2) ++
        rest.dropWhile fun item => item.2 == first.2 := by
      rw [List.cons_append, List.takeWhile_append_dropWhile]
    generalize hrunEq : (first :: rest.takeWhile fun item => item.2 == first.2) = run at hrun hsplit
    generalize hafterEq : (rest.dropWhile fun item => item.2 == first.2) = after at hafter hsplit
    have hfirst : first ∈ run := hrunEq ▸ List.mem_cons_self ..
    have hordered' : ordered = seen ++ run ++ after := by
      rw [hordered, hsplit, List.append_assoc]
    have hrank := averageRank_run (hordered' ▸ hlong)
      (fun item hitem => hless item hitem first (List.mem_cons_self ..)) hrun hafter
    rw [← hordered'] at hrank
    rw [rankRuns, hrunEq, hafterEq, ← List.length_append]
    apply ih after.length _ _ hordered' _ _ rfl
    · rw [← hn, ← hafterEq]
      exact Nat.lt_succ_of_le (List.dropWhile_sublist _).length_le
    · intro a ha b hb
      rcases List.mem_append.mp ha with ha | ha
      · exact hless a ha b (hsplit ▸ List.mem_append_right _ hb)
      · rw [hrun a ha]
        exact hafter b hb
    · intro k
      rw [get?_foldl_insert_const, houtput, lastWhere_append]
      cases hfound : lastWhere (fun j => j = k) run with
      | none => rfl
      | some v =>
        obtain ⟨a, ha, _⟩ := mem_of_lastWhere hfound
        have hv : v = first.2 := hrun (a, v) ha
        rw [Option.some_or, Option.map_some, Option.map_some, Option.some_or, hv, hrank,
          List.length_append]

/-- Each name gets the rank of the last value it has in ascending order. -/
theorem percentileRanksByName_get?_sorted (values : List (String × F)) (name : String) :
    (percentileRanksByName values).get? name =
      (lastWhere (fun k => k = name) (pySorted rankedBefore values)).map (averageRank values) := by
  have hperm := pySorted_perm rankedBefore values
  have hrank : averageRank (pySorted rankedBefore values) = averageRank values :=
    funext fun v => averageRank_perm (hperm.map _) v
  have hascending := ascending_pySorted values
  rw [← hrank, percentileRanksByName]
  generalize pySorted rankedBefore values = ordered at hascending
  rcases ordered with _ | ⟨only, _ | ⟨second, rest⟩⟩
  · rfl
  · have hone : averageRank [only] only.2 = 1 := if_pos rfl
    rw [lastWhere_cons, Dict.get?_insert]
    by_cases hname : only.1 = name
    · simp [hname, lastWhere, hone]
    · have hname' : ¬name = only.1 := fun h => hname h.symm
      simp [hname, hname', lastWhere]
  · exact rankRuns_get? [] (by simp) rfl hascending (by simp) (fun _ => rfl) name

/-- A name has the rank of the largest value it comes with. -/
theorem percentileRanksByName_get? {name : String} {v : F} (hmem : (name, v) ∈ values)
    (hlargest : ∀ w, (name, w) ∈ values → value w ≤ value v) :
    (percentileRanksByName values).get? name = some (averageRank values v) := by
  have hmem' : (name, v) ∈ pySorted rankedBefore values := (mem_pySorted _).mpr hmem
  obtain ⟨w, hw⟩ := lastWhere_isSome (p := fun k => decide (k = name)) hmem' (decide_eq_true rfl)
  obtain ⟨k, hk, hname⟩ := mem_of_lastWhere hw
  have hk : (name, w) ∈ values := (mem_pySorted _).mp (of_decide_eq_true hname ▸ hk)
  have hlast : value v ≤ value w := by
    have hfilter := (ascending_pySorted values).sublist
      (List.filter_sublist (p := fun e : String × F => decide (e.1 = name)))
    obtain ⟨e, he, rfl⟩ := Option.map_eq_some_iff.mp hw
    have hin : (name, v) ∈ (pySorted rankedBefore values).filter fun e => decide (e.1 = name) :=
      List.mem_filter.mpr ⟨hmem', decide_eq_true rfl⟩
    obtain ⟨front, hfront⟩ := List.getLast?_eq_some_iff.mp he
    rw [hfront] at hin hfilter
    rcases List.mem_append.mp hin with h | h
    · exact (List.pairwise_append.mp hfilter).2.2 _ h e (List.mem_singleton_self e)
    · rw [← List.mem_singleton.mp h]
  rw [percentileRanksByName_get?_sorted, hw, Option.map_some,
    value_injective (le_antisymm (hlargest w hk) hlast)]

theorem countBelow_lt_countUpTo {v : F} (h : v ∈ values.map Prod.snd) :
    countBelow values v < countUpTo values v := by
  obtain ⟨item, hitem, rfl⟩ := List.mem_map.mp h
  obtain ⟨front, back, rfl⟩ := List.append_of_mem hitem
  have hle : ∀ l : List (String × F), countBelow l item.2 ≤ countUpTo l item.2 := by
    intro l
    apply List.countP_mono_left
    intro a _ ha
    exact decide_eq_true ((le_iff _ _).mpr ((lt_iff _ _).mp (of_decide_eq_true ha)).le)
  have hfront := hle front
  have hback := hle back
  have hself : ¬item.2 < item.2 := fun h => lt_irrefl _ ((lt_iff _ _).mp h)
  have hself' : item.2 ≤ item.2 := (le_iff _ _).mpr le_rfl
  simp only [countBelow, countUpTo, List.countP_append, List.countP_cons, decide_eq_true_eq, hself,
    hself', if_true, if_false] at hfront hback ⊢
  omega

omit [MonotoneFloat F] in
theorem countUpTo_le (values : List (String × F)) (v : F) : countUpTo values v ≤ values.length :=
  List.countP_le_length

/-- A larger value is counted after all the entries with a smaller one. -/
theorem countUpTo_le_countBelow (values : List (String × F)) {v w : F} (h : value v < value w) :
    countUpTo values v ≤ countBelow values w := by
  apply List.countP_mono_left
  intro a _ ha
  exact decide_eq_true ((lt_iff _ _).mpr (((le_iff _ _).mp (of_decide_eq_true ha)).trans_lt h))

theorem rank_le_of_le {m n : ℤ} {last : ℕ} (hlast : 0 < last) (h : m ≤ n) :
    value (PyFloat.ofInt m / PyFloat.ofInt 2 / PyFloat.ofInt last : F) ≤
      value (PyFloat.ofInt n / PyFloat.ofInt 2 / PyFloat.ofInt last : F) :=
  div_mono _ _ _ (div_mono _ _ _ (ofInt_mono m n h) (ofInt_pos 2 (by decide)))
    (ofInt_pos last (by exact_mod_cast hlast))

theorem averageRank_mono {v w : F} (hv : v ∈ values.map Prod.snd) (hw : w ∈ values.map Prod.snd)
    (h : value v ≤ value w) : value (averageRank values v) ≤ value (averageRank values w) := by
  rcases h.eq_or_lt with h | h
  · rw [value_injective h]
  · have hbetween := countUpTo_le_countBelow values h
    have hv := countBelow_lt_countUpTo hv
    have hw := countBelow_lt_countUpTo hw
    have hlength := countUpTo_le values w
    rw [averageRank, averageRank]
    split
    · exact le_rfl
    · exact rank_le_of_le (by omega) (by omega)

theorem averageRank_mem {v : F} (h : v ∈ values.map Prod.snd) :
    0 ≤ value (averageRank values v) ∧ value (averageRank values v) ≤ 1 := by
  have hcount := countBelow_lt_countUpTo h
  have hlength := countUpTo_le values v
  rw [averageRank]
  split
  · rw [value_one]
    exact ⟨zero_le_one, le_rfl⟩
  · rename_i hne
    have hlast : 0 < values.length - 1 := by omega
    have hlastPos := ofInt_pos (F := F) (values.length - 1 : ℕ) (by exact_mod_cast hlast)
    have htwo : (0 : ℚ) < value (PyFloat.ofInt 2 : F) := ofInt_pos 2 (by decide)
    have hfirst : (PyFloat.ofInt 0 / PyFloat.ofInt 2 / PyFloat.ofInt (values.length - 1 : ℕ) : F) = 0 := by
      rw [ofInt_zero, MonotoneFloat.zero_div _ htwo, MonotoneFloat.zero_div _ hlastPos]
    have hfinal : (PyFloat.ofInt (2 * (values.length - 1 : ℕ)) / PyFloat.ofInt 2 /
        PyFloat.ofInt (values.length - 1 : ℕ) : F) = 1 := by
      rw [half_double _ (Int.natCast_nonneg _), MonotoneFloat.div_self _ hlastPos]
    constructor
    · rw [← value_zero (F := F), ← hfirst]
      exact rank_le_of_le hlast (by omega)
    · rw [← value_one (F := F), ← hfinal]
      exact rank_le_of_le hlast (by omega)

omit [PyFloat F] [MonotoneFloat F] in
theorem sum_range' (start count : ℕ) :
    2 * (List.range' start count).sum + count = count * (start + (start + count)) := by
  induction count generalizing start with
  | zero => simp
  | succ count ih =>
    have ih := ih (start + 1)
    rw [List.range'_succ, List.sum_cons]
    linarith

/-- The sorted places of the entries with this value. -/
def tiedPlaces (values : List (String × F)) (v : F) : List ℕ :=
  List.range' (countBelow values v) (countUpTo values v - countBelow values v)

/-- The numerator of a rank is twice the mean of the tied places. -/
theorem sum_tiedPlaces {v : F} (h : v ∈ values.map Prod.snd) :
    2 * (tiedPlaces values v).sum =
      (tiedPlaces values v).length * (countBelow values v + countUpTo values v - 1) := by
  have hcount := countBelow_lt_countUpTo h
  have hsum := sum_range' (countBelow values v) (countUpTo values v - countBelow values v)
  rw [Nat.add_sub_cancel' hcount.le] at hsum
  rw [tiedPlaces, List.length_range', Nat.mul_sub_one]
  omega

end

end QuantAgent.Features
