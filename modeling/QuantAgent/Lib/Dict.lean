import QuantAgent.Lib.PyList
import Mathlib.Data.List.Nodup
import Mathlib.Algebra.BigOperators.Group.List.Basic
import Mathlib.Tactic

namespace QuantAgent
set_option autoImplicit true

/-- What is asked of a value that is not there holds. -/
theorem forall_of_eq_none {o : Option α} {P : α → Prop} (h : o = none) : ∀ x, o = some x → P x := by
  intro x hx
  rw [h] at hx
  cases hx

/-- A Python `dict`: keys are distinct and iteration follows the order of first insertion. -/
@[ext]
structure Dict (κ : Type u) (α : Type v) where
  entries : List (κ × α)
  nodup : (entries.map Prod.fst).Nodup

namespace Dict

def empty : Dict κ α := ⟨[], List.nodup_nil⟩

def keys (d : Dict κ α) : List κ := d.entries.map Prod.fst

def values (d : Dict κ α) : List α := d.entries.map Prod.snd

def size (d : Dict κ α) : ℕ := d.entries.length

instance : Membership κ (Dict κ α) := ⟨fun d k => k ∈ d.keys⟩

instance [DecidableEq κ] (d : Dict κ α) (k : κ) : Decidable (k ∈ d) :=
  inferInstanceAs (Decidable (k ∈ d.keys))

theorem keys_nodup (d : Dict κ α) : d.keys.Nodup := d.nodup

theorem mem_def (d : Dict κ α) : k ∈ d ↔ k ∈ d.entries.map Prod.fst := Iff.rfl

def mapVal (f : κ → α → β) (d : Dict κ α) : Dict κ β where
  entries := d.entries.map fun e => (e.1, f e.1 e.2)
  nodup := by simpa [Function.comp_def] using d.nodup

def filter (p : κ → α → Bool) (d : Dict κ α) : Dict κ α where
  entries := d.entries.filter fun e => p e.1 e.2
  nodup := d.nodup.sublist (List.filter_sublist.map Prod.fst)

/-- `dict(sorted(d.items()))` -/
def sortKeys (lt : κ → κ → Bool) (d : Dict κ α) : Dict κ α where
  entries := pySorted (fun a b => lt a.1 b.1) d.entries
  nodup := ((pySorted_perm _ _).map Prod.fst).nodup_iff.mpr d.nodup

theorem sortKeys_eq_self {lt : κ → κ → Bool} {d : Dict κ α}
    (h : d.keys.Pairwise fun a b => lt b a = false) : d.sortKeys lt = d := by
  ext1
  exact pySorted_eq_self (List.pairwise_map.mp h)

theorem nodup_append (d : Dict κ α) (h : k ∉ d) :
    ((d.entries ++ [(k, v)]).map Prod.fst).Nodup := by
  rw [List.map_append, List.nodup_append]
  refine ⟨d.nodup, List.nodup_singleton _, ?_⟩
  intro a ha b hb hab
  simp only [List.map_cons, List.map_nil, List.mem_singleton] at hb
  subst hab hb
  exact h ha

@[simp] theorem keys_mapVal (f : κ → α → β) (d : Dict κ α) : (d.mapVal f).keys = d.keys := by
  simp [keys, mapVal, Function.comp_def]

@[simp] theorem mem_mapVal (f : κ → α → β) (d : Dict κ α) : k ∈ d.mapVal f ↔ k ∈ d := by
  change k ∈ (d.mapVal f).keys ↔ k ∈ d.keys
  rw [keys_mapVal]

@[simp] theorem size_mapVal (f : κ → α → β) (d : Dict κ α) : (d.mapVal f).size = d.size := by
  simp [size, mapVal]

theorem mapVal_mapVal (f : κ → α → β) (g : κ → β → γ) (d : Dict κ α) :
    (d.mapVal f).mapVal g = d.mapVal fun k v => g k (f k v) := by
  ext1
  simp [mapVal]

section Lookup
variable [DecidableEq κ]

def find (k : κ) : List (κ × α) → Option α
  | [] => none
  | (j, v) :: l => if k = j then some v else find k l

def get? (d : Dict κ α) (k : κ) : Option α := find k d.entries

/-- `d.pop(k, None)` -/
def erase (d : Dict κ α) (k : κ) : Dict κ α := d.filter fun j _ => j ≠ k

/-- `d[k] = v`: an old key keeps its place, a new key goes last. -/
def insert (d : Dict κ α) (k : κ) (v : α) : Dict κ α :=
  if h : k ∈ d then d.mapVal fun j w => if j = k then v else w
  else ⟨d.entries ++ [(k, v)], d.nodup_append h⟩

/-- `d.setdefault(k, e)`, then the value updated in place. -/
def upsert (d : Dict κ α) (k : κ) (e : α) (f : α → α) : Dict κ α :=
  d.insert k (f ((d.get? k).getD e))

/-- One entry per key of the list, each folded from the items with that key. -/
def group (key : α → κ) (e : β) (f : β → α → β) (l : List α) : Dict κ β :=
  l.foldl (fun d a => d.upsert (key a) e fun b => f b a) empty

theorem find_eq_none_iff {l : List (κ × α)} : find k l = none ↔ k ∉ l.map Prod.fst := by
  induction l with
  | nil => simp [find]
  | cons e l ih =>
    obtain ⟨j, w⟩ := e
    by_cases h : k = j
    · simp [find, h]
    · simp only [find, if_neg h]
      rw [ih, List.map_cons, List.mem_cons, not_or, and_iff_right h]

theorem find_append {l m : List (κ × α)} : find k (l ++ m) = (find k l).or (find k m) := by
  induction l with
  | nil => simp [find]
  | cons e l ih =>
    obtain ⟨j, w⟩ := e
    by_cases h : k = j
    · simp [find, h]
    · simp only [List.cons_append, find, if_neg h, ih]

theorem find_map (f : κ → α → β) {l : List (κ × α)} :
    find k (l.map fun e => (e.1, f e.1 e.2)) = (find k l).map (f k) := by
  induction l with
  | nil => rfl
  | cons e l ih =>
    obtain ⟨j, w⟩ := e
    by_cases h : k = j
    · simp [find, h]
    · simp only [List.map_cons, find, if_neg h, ih]

theorem find_filter (p : κ → α → Bool) {l : List (κ × α)} (hl : (l.map Prod.fst).Nodup) :
    find k (l.filter fun e => p e.1 e.2) = (find k l).filter (p k) := by
  induction l with
  | nil => rfl
  | cons e l ih =>
    obtain ⟨j, w⟩ := e
    rw [List.map_cons, List.nodup_cons] at hl
    have ih := ih hl.2
    by_cases h : k = j
    · subst h
      have hn : find k l = none := find_eq_none_iff.mpr hl.1
      rw [hn] at ih
      by_cases hp : p k w
      · simp [hp, find, Option.filter]
      · simp [hp, find, Option.filter, ih]
    · by_cases hp : p j w
      · simp only [List.filter_cons, hp, if_true, find, if_neg h, ih]
      · simp only [List.filter_cons, hp, find, if_neg h, ih, Bool.false_eq_true, if_false]

theorem mem_of_find {l : List (κ × α)} (h : find k l = some v) : (k, v) ∈ l := by
  induction l with
  | nil => cases h
  | cons e l ih =>
    obtain ⟨j, w⟩ := e
    by_cases hk : k = j
    · simp only [find, if_pos hk, Option.some.injEq] at h
      simp [hk, h]
    · simp only [find, if_neg hk] at h
      exact List.mem_cons_of_mem _ (ih h)

theorem get?_eq_none_iff {d : Dict κ α} : d.get? k = none ↔ k ∉ d := find_eq_none_iff

theorem mem_iff_get? {d : Dict κ α} : k ∈ d ↔ ∃ v, d.get? k = some v := by
  rw [← Option.ne_none_iff_exists', ne_eq, get?_eq_none_iff, not_not]

theorem mem_of_get? {d : Dict κ α} (h : d.get? k = some v) : k ∈ d := mem_iff_get?.mpr ⟨v, h⟩

theorem entry_mem_of_get? {d : Dict κ α} (h : d.get? k = some v) : (k, v) ∈ d.entries :=
  mem_of_find h

theorem get?_of_entry_mem {d : Dict κ α} (h : (k, v) ∈ d.entries) : d.get? k = some v := by
  obtain ⟨l, hl⟩ := d
  change find k l = some v
  change (k, v) ∈ l at h
  induction l with
  | nil => cases h
  | cons e l ih =>
    obtain ⟨j, w⟩ := e
    rw [List.map_cons, List.nodup_cons] at hl
    rcases List.mem_cons.mp h with hkv | hm
    · cases hkv
      simp [find]
    · have hne : k ≠ j := by
        rintro rfl
        exact hl.1 (List.mem_map.mpr ⟨_, hm, rfl⟩)
      simpa only [find, if_neg hne] using ih hl.2 hm

@[simp] theorem get?_empty : (empty : Dict κ α).get? k = none := rfl

@[simp] theorem get?_mapVal (f : κ → α → β) (d : Dict κ α) :
    (d.mapVal f).get? k = (d.get? k).map (f k) := find_map f

@[simp] theorem get?_filter (p : κ → α → Bool) (d : Dict κ α) :
    (d.filter p).get? k = (d.get? k).filter (p k) := find_filter p d.nodup

theorem get?_erase (d : Dict κ α) :
    (d.erase k).get? j = if j = k then none else d.get? j := by
  rw [erase, get?_filter]
  cases d.get? j with
  | none => simp
  | some v =>
    by_cases h : j = k
    · simp [h, Option.filter]
    · simp [h, Option.filter]

@[simp] theorem get?_erase_self (d : Dict κ α) : (d.erase k).get? k = none := by
  rw [get?_erase, if_pos rfl]

theorem mem_erase {d : Dict κ α} : j ∈ d.erase k ↔ j ≠ k ∧ j ∈ d := by
  rw [mem_iff_get?, get?_erase, mem_iff_get?]
  by_cases h : j = k
  · simp [h]
  · simp [h]

theorem get?_insert (d : Dict κ α) :
    (d.insert k v).get? j = if j = k then some v else d.get? j := by
  unfold insert
  by_cases hk : k ∈ d
  · rw [dif_pos hk, get?_mapVal]
    by_cases hj : j = k
    · subst hj
      obtain ⟨w, hw⟩ := mem_iff_get?.mp hk
      simp [hw]
    · simp [hj]
  · rw [dif_neg hk]
    change find j (d.entries ++ [(k, v)]) = _
    rw [find_append]
    by_cases hj : j = k
    · subst hj
      have hn : find j d.entries = none := get?_eq_none_iff.mpr hk
      simp [hn, find]
    · simp [find, hj, get?]

@[simp] theorem get?_insert_self (d : Dict κ α) : (d.insert k v).get? k = some v := by
  rw [get?_insert, if_pos rfl]

theorem mem_insert {d : Dict κ α} : j ∈ d.insert k v ↔ j = k ∨ j ∈ d := by
  rw [mem_iff_get?, get?_insert, mem_iff_get?]
  by_cases h : j = k
  · simp [h]
  · simp [h]

theorem keys_insert_of_mem {d : Dict κ α} (h : k ∈ d) : (d.insert k v).keys = d.keys := by
  rw [insert, dif_pos h, keys_mapVal]

theorem size_insert_of_not_mem {d : Dict κ α} (h : k ∉ d) :
    (d.insert k v).size = d.size + 1 := by
  rw [insert, dif_neg h]
  simp [size]

theorem mapVal_insert (f : κ → α → β) (d : Dict κ α) :
    (d.insert k v).mapVal f = (d.mapVal f).insert k (f k v) := by
  unfold insert
  by_cases h : k ∈ d
  · rw [dif_pos h, dif_pos ((mem_mapVal f d).mpr h)]
    ext1
    simp only [mapVal, List.map_map]
    apply List.map_congr_left
    rintro ⟨j, w⟩ _
    by_cases hj : j = k
    · simp [hj]
    · simp [hj]
  · rw [dif_neg h, dif_neg (h ∘ (mem_mapVal f d).mp)]
    ext1
    simp [mapVal]

theorem mapVal_erase (f : κ → α → β) (d : Dict κ α) :
    (d.erase k).mapVal f = (d.mapVal f).erase k := by
  ext1
  simp only [erase, filter, mapVal, List.filter_map]
  rfl

theorem get?_upsert (d : Dict κ α) (k : κ) (e : α) (f : α → α) :
    (d.upsert k e f).get? j = if j = k then some (f ((d.get? k).getD e)) else d.get? j :=
  d.get?_insert

theorem group_append (key : α → κ) (e : β) (f : β → α → β) (l m : List α) :
    group key e f (l ++ m) = m.foldl (fun d a => d.upsert (key a) e fun b => f b a)
      (group key e f l) := List.foldl_append

theorem get?_group (key : α → κ) (e : β) (f : β → α → β) (l : List α) :
    (group key e f l).get? k =
      if l.filter (key · = k) = [] then none else some ((l.filter (key · = k)).foldl f e) := by
  induction l using List.reverseRecOn with
  | nil => rfl
  | append_singleton l a ih =>
    rw [group_append, List.foldl_cons, List.foldl_nil, get?_upsert, List.filter_append]
    by_cases h : k = key a
    · subst h
      rw [if_pos rfl, ih]
      by_cases hl : l.filter (key · = key a) = []
      · simp [hl]
      · simp [hl]
    · have ha : [a].filter (key · = k) = [] := by simpa using Ne.symm h
      rw [if_neg h, ih, ha, List.append_nil]

theorem mem_group {key : α → κ} {e : β} {f : β → α → β} {l : List α} :
    k ∈ group key e f l ↔ ∃ a ∈ l, key a = k := by
  rw [mem_iff_get?, get?_group]
  by_cases h : l.filter (key · = k) = []
  · simp only [h, if_true, reduceCtorEq, exists_false, false_iff]
    rintro ⟨a, ha, hk⟩
    have hm : a ∈ l.filter (key · = k) := List.mem_filter.mpr ⟨ha, decide_eq_true hk⟩
    rw [h] at hm
    cases hm
  · simp only [h, if_false, Option.some.injEq, exists_eq', true_iff]
    obtain ⟨a, ha⟩ := List.exists_mem_of_ne_nil _ h
    obtain ⟨ha, hk⟩ := List.mem_filter.mp ha
    exact ⟨a, ha, of_decide_eq_true hk⟩

theorem keys_upsert (d : Dict κ α) (k : κ) (e : α) (f : α → α) :
    (d.upsert k e f).keys = if k ∈ d then d.keys else d.keys ++ [k] := by
  unfold upsert
  by_cases h : k ∈ d
  · rw [keys_insert_of_mem h, if_pos h]
  · rw [if_neg h, insert, dif_neg h]
    simp [keys]

/-- Grouping a list with increasing keys yields the keys in increasing order. -/
theorem keys_group_pairwise [LinearOrder κ'] {key : α → κ'} {e : β} {f : β → α → β} {l : List α}
    (h : l.Pairwise fun a b => key a ≤ key b) : (group key e f l).keys.Pairwise (· < ·) := by
  induction l using List.reverseRecOn with
  | nil => exact List.Pairwise.nil
  | append_singleton l a ih =>
    rw [List.pairwise_append] at h
    obtain ⟨hl, -, hla⟩ := h
    rw [group_append, List.foldl_cons, List.foldl_nil, keys_upsert]
    by_cases hm : key a ∈ group key e f l
    · rw [if_pos hm]
      exact ih hl
    · rw [if_neg hm, List.pairwise_append]
      refine ⟨ih hl, List.pairwise_singleton _ _, ?_⟩
      intro k hk j hj
      obtain ⟨b, hb, rfl⟩ := mem_group.mp hk
      rw [List.mem_singleton.mp hj]
      have hle := hla b hb a (List.mem_singleton.mpr rfl)
      refine lt_of_le_of_ne hle fun heq => hm (heq ▸ hk)

/-- `{key(a): a for a in l}`: the last item of a key stays. -/
def index (key : α → κ) (l : List α) : Dict κ α := l.foldl (fun d a => d.insert (key a) a) empty

theorem index_append (key : α → κ) (l m : List α) :
    index key (l ++ m) = m.foldl (fun d a => d.insert (key a) a) (index key l) := List.foldl_append

theorem get?_index (key : α → κ) (l : List α) :
    (index key l).get? k = (l.filter (key · = k)).getLast? := by
  induction l using List.reverseRecOn with
  | nil => rfl
  | append_singleton l a ih =>
    rw [index_append, List.foldl_cons, List.foldl_nil, get?_insert, ih, List.filter_append]
    by_cases h : key a = k
    · simp [h]
    · simp [h, Ne.symm h]

theorem mem_index {key : α → κ} {l : List α} : k ∈ index key l ↔ ∃ a ∈ l, key a = k := by
  rw [← not_iff_not, ← get?_eq_none_iff, get?_index, List.getLast?_eq_none_iff,
    List.filter_eq_nil_iff]
  simp

theorem mem_of_get?_index {key : α → κ} {l : List α} (h : (index key l).get? k = some a) :
    a ∈ l ∧ key a = k := by
  rw [get?_index] at h
  obtain ⟨hmem, hkey⟩ := List.mem_filter.mp (List.mem_of_getLast? h)
  exact ⟨hmem, of_decide_eq_true hkey⟩

/-- Indexing a list by nondecreasing keys yields increasing keys. -/
theorem keys_index_pairwise [LinearOrder κ'] {key : α → κ'} {l : List α}
    (h : l.Pairwise fun a b => key a ≤ key b) : (index key l).keys.Pairwise (· < ·) := by
  induction l using List.reverseRecOn with
  | nil => exact List.Pairwise.nil
  | append_singleton l a ih =>
    rw [List.pairwise_append] at h
    obtain ⟨hl, -, hla⟩ := h
    rw [index_append, List.foldl_cons, List.foldl_nil]
    by_cases hm : key a ∈ index key l
    · rw [keys_insert_of_mem hm]
      exact ih hl
    · rw [insert, dif_neg hm, keys, List.map_append, List.pairwise_append]
      refine ⟨ih hl, List.pairwise_singleton _ _, ?_⟩
      intro k hk j hj
      obtain ⟨b, hb, rfl⟩ := mem_index.mp hk
      rw [List.mem_singleton.mp hj]
      have hle := hla b hb a (List.mem_singleton.mpr rfl)
      refine lt_of_le_of_ne hle fun heq => ?_
      have heq : key b = key a := heq
      exact hm (heq ▸ hk)

theorem filter_eq_self {p : κ → α → Bool} {d : Dict κ α}
    (h : ∀ k v, d.get? k = some v → p k v = true) : d.filter p = d := by
  ext1
  apply List.filter_eq_self.mpr
  rintro ⟨k, v⟩ he
  exact h k v (get?_of_entry_mem he)

/-- Every entry satisfies `P`. -/
def All (d : Dict κ α) (P : κ → α → Prop) : Prop := ∀ k v, d.get? k = some v → P k v

theorem All.empty {P : κ → α → Prop} : (Dict.empty : Dict κ α).All P := nofun

theorem All.insert {d : Dict κ α} {P : κ → α → Prop} (h : d.All P) (hv : P k v) :
    (d.insert k v).All P := by
  intro j w hw
  rw [get?_insert] at hw
  split at hw
  · rename_i hj
    cases hw
    exact hj ▸ hv
  · exact h j w hw

theorem All.erase {d : Dict κ α} {P : κ → α → Prop} (h : d.All P) (k : κ) : (d.erase k).All P := by
  intro j w hw
  rw [get?_erase] at hw
  split at hw
  · cases hw
  · exact h j w hw

theorem All.mapVal {d : Dict κ α} {P : κ → α → Prop} {Q : κ → β → Prop} {f : κ → α → β}
    (h : d.All P) (hf : ∀ k v, P k v → Q k (f k v)) : (d.mapVal f).All Q := by
  intro k w hw
  rw [get?_mapVal] at hw
  obtain ⟨v, hv, rfl⟩ := Option.map_eq_some_iff.mp hw
  exact hf k v (h k v hv)

end Lookup

section Sum
variable [AddCommGroup M]

/-- The total of a weight over all entries. -/
def sum (d : Dict κ α) (f : κ → α → M) : M := (d.entries.map fun e => f e.1 e.2).sum

@[simp] theorem sum_empty (f : κ → α → M) : (empty : Dict κ α).sum f = 0 := rfl

theorem sum_mapVal (d : Dict κ α) (g : κ → α → β) (f : κ → β → M) :
    (d.mapVal g).sum f = d.sum fun k v => f k (g k v) := by
  simp [sum, mapVal, Function.comp_def]

theorem sum_sub (d : Dict κ α) (f g : κ → α → M) :
    (d.sum fun k v => f k v - g k v) = d.sum f - d.sum g := by
  unfold sum
  induction d.entries with
  | nil => simp
  | cons e l ih =>
    simp only [List.map_cons, List.sum_cons, ih]
    abel

variable [DecidableEq κ]

theorem sum_list_erase (f : κ → α → M) {l : List (κ × α)} (hl : (l.map Prod.fst).Nodup)
    (h : find k l = some v) :
    (l.map fun e => f e.1 e.2).sum =
      f k v + ((l.filter fun e => e.1 ≠ k).map fun e => f e.1 e.2).sum := by
  induction l with
  | nil => cases h
  | cons e l ih =>
    obtain ⟨j, w⟩ := e
    rw [List.map_cons, List.nodup_cons] at hl
    by_cases hk : k = j
    · subst hk
      simp only [find, if_true, Option.some.injEq] at h
      subst h
      have hf : l.filter (fun e => e.1 ≠ k) = l := by
        rw [List.filter_eq_self]
        intro e he
        have hne : e.1 ≠ k := fun hek => hl.1 (List.mem_map.mpr ⟨e, he, hek⟩)
        simpa using hne
      simp only [List.map_cons, List.sum_cons, List.filter_cons, ne_eq, not_true_eq_false,
        decide_false, Bool.false_eq_true, if_false]
      simp only [ne_eq] at hf
      rw [hf]
    · simp only [find, if_neg hk] at h
      have hjk : j ≠ k := Ne.symm hk
      simp only [List.map_cons, List.sum_cons, List.filter_cons, ne_eq, hjk, not_false_eq_true,
        decide_true, if_true, ih hl.2 h]
      abel

theorem sum_erase {d : Dict κ α} (f : κ → α → M) (h : d.get? k = some v) :
    (d.erase k).sum f = d.sum f - f k v := by
  have hs := sum_list_erase f d.nodup h
  rw [sum, sum, hs]
  change ((d.entries.filter _).map _).sum = _
  abel_nf

theorem sum_congr {d : Dict κ α} {f g : κ → α → M}
    (h : ∀ k v, d.get? k = some v → f k v = g k v) : d.sum f = d.sum g := by
  unfold sum
  congr 1
  apply List.map_congr_left
  rintro ⟨k, v⟩ he
  exact h k v (get?_of_entry_mem he)

theorem sum_insert_new {d : Dict κ α} (f : κ → α → M) (h : k ∉ d) :
    (d.insert k v).sum f = d.sum f + f k v := by
  rw [insert, dif_neg h]
  simp [sum]

theorem sum_insert_old {d : Dict κ α} (f : κ → α → M) (h : d.get? k = some v) :
    (d.insert k w).sum f = d.sum f - f k v + f k w := by
  have hg : (d.insert k w).sum f = d.sum fun j v => f j (if j = k then w else v) := by
    rw [insert, dif_pos (mem_of_get? h), sum_mapVal]
  have hrest : ((d.erase k).sum fun j v => f j (if j = k then w else v)) = (d.erase k).sum f := by
    apply sum_congr
    intro j v hj
    have hne : j ≠ k := (mem_erase.mp (mem_of_get? hj)).1
    rw [if_neg hne]
  rw [sum_erase _ h, sum_erase f h, if_pos rfl, sub_eq_iff_eq_add] at hrest
  rw [hg, hrest]

end Sum
section Count

/-- How many entries have a value that `p` admits. -/
def count (d : Dict κ α) (p : α → Bool) : ℕ := d.values.countP p

theorem count_eq_sum (d : Dict κ α) (p : α → Bool) :
    (d.count p : ℤ) = d.sum fun _ v => if p v then 1 else 0 := by
  unfold count values sum
  induction d.entries with
  | nil => rfl
  | cons e l ih =>
    simp only [List.map_cons, List.countP_cons, List.sum_cons, Nat.cast_add, ih]
    split <;> simp [add_comm]

theorem count_mapVal {d : Dict κ α} {p : α → Bool} {f : κ → α → α} (h : ∀ k v, p (f k v) = p v) :
    (d.mapVal f).count p = d.count p := by
  have hsum : ((d.mapVal f).count p : ℤ) = d.count p := by
    rw [count_eq_sum, sum_mapVal, count_eq_sum]
    simp only [h]
  exact_mod_cast hsum

variable [DecidableEq κ]

theorem count_insert_new {d : Dict κ α} (p : α → Bool) (h : k ∉ d) :
    (d.insert k v).count p = d.count p + if p v then 1 else 0 := by
  have hsum : ((d.insert k v).count p : ℤ) = d.count p + if p v then 1 else 0 := by
    rw [count_eq_sum, sum_insert_new _ h, count_eq_sum]
  cases hp : p v <;> simp only [hp, if_true, Bool.false_eq_true, if_false] at hsum ⊢
  · exact_mod_cast hsum
  · exact_mod_cast hsum

theorem count_insert_old {d : Dict κ α} (p : α → Bool) (h : d.get? k = some v) :
    ((d.insert k w).count p : ℤ) = d.count p - (if p v then 1 else 0) + if p w then 1 else 0 := by
  rw [count_eq_sum, sum_insert_old _ h, count_eq_sum]

theorem count_insert_same {d : Dict κ α} {p : α → Bool} (h : d.get? k = some v) (hp : p w = p v) :
    (d.insert k w).count p = d.count p := by
  have hcount := count_insert_old (w := w) p h
  rw [hp, sub_add_cancel] at hcount
  exact_mod_cast hcount

end Count
end Dict
end QuantAgent
