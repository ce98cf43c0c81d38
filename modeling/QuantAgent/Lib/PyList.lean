import Mathlib.Data.List.Sort
import Mathlib.Tactic

namespace QuantAgent
set_option autoImplicit true

/-- `sorted` with `lt` as `<`: stable. -/
def pySorted (lt : α → α → Bool) (l : List α) : List α := l.insertionSort fun a b => !lt b a

theorem pySorted_perm (lt : α → α → Bool) (l : List α) : (pySorted lt l).Perm l :=
  List.perm_insertionSort _ l

theorem mem_pySorted (lt : α → α → Bool) {l : List α} : a ∈ pySorted lt l ↔ a ∈ l :=
  (pySorted_perm lt l).mem_iff

theorem pySorted_eq_self (h : l.Pairwise fun a b => lt b a = false) : pySorted lt l = l := by
  apply List.Pairwise.insertionSort_eq
  simpa using h

theorem pySorted_pairwise [LinearOrder κ] {lt : α → α → Bool} {key : α → κ}
    (h : ∀ a b, lt a b = decide (key a < key b)) (l : List α) :
    (pySorted lt l).Pairwise fun a b => key a ≤ key b := by
  have hle : ∀ a b, (!lt b a) = true ↔ key a ≤ key b := by simp [h]
  have : Std.Total fun a b => (!lt b a) = true :=
    ⟨fun a b => by simpa only [hle] using le_total (key a) (key b)⟩
  have : IsTrans α fun a b => (!lt b a) = true :=
    ⟨fun a b c => by simpa only [hle] using le_trans⟩
  exact (List.pairwise_insertionSort _ l).imp fun {a b} hab => (hle a b).mp hab

/-- Sorting by distinct keys forgets the order of the input. -/
theorem pySorted_congr [LinearOrder κ] {lt : α → α → Bool} {key : α → κ}
    (h : ∀ a b, lt a b = decide (key a < key b)) {l m : List α} (hkeys : (l.map key).Nodup)
    (hperm : l.Perm m) : pySorted lt l = pySorted lt m := by
  have hl := pySorted_perm lt l
  have hm := pySorted_perm lt m
  refine List.Perm.eq_of_pairwise ?_ (pySorted_pairwise h l) (pySorted_pairwise h m)
    (hl.trans (hperm.trans hm.symm))
  intro a b ha hb hab hba
  have ha : a ∈ l := (mem_pySorted lt).mp ha
  have hb : b ∈ l := hperm.mem_iff.mpr ((mem_pySorted lt).mp hb)
  exact List.inj_on_of_nodup_map hkeys ha hb (le_antisymm hab hba)

/-- Sorting commutes with a map that keeps the order. -/
theorem pySorted_map {lt : α → α → Bool} {lt' : β → β → Bool} {f : α → β}
    (h : ∀ a b, lt' (f a) (f b) = lt a b) (l : List α) :
    pySorted lt' (l.map f) = (pySorted lt l).map f := by
  refine (List.map_insertionSort _ _ f l fun a _ b _ => ?_).symm
  rw [h]

/-- `l[:n]` for any integer `n`. -/
def pyTake (n : ℤ) (l : List α) : List α :=
  if n < 0 then l.take (l.length - n.natAbs) else l.take n.toNat

/-- The last value a dict keyed by `p` ends with when the pairs are stored in order. -/
def lastWhere (p : α → Bool) (l : List (α × β)) : Option β :=
  ((l.filter fun e => p e.1).getLast?).map Prod.snd

/-- The index a dict keyed by `p` ends with under `enumerate`. -/
def lastIndex (p : α → Bool) : List α → Option ℕ
  | [] => none
  | a :: l => ((lastIndex p l).map (· + 1)).or (if p a then some 0 else none)

theorem lastWhere_filter {p q : α → Bool} (h : ∀ a, p a → q a) (l : List (α × β)) :
    lastWhere p (l.filter fun e => q e.1) = lastWhere p l := by
  unfold lastWhere
  rw [List.filter_filter]
  congr 3
  funext e
  cases hp : p e.1 with
  | false => rfl
  | true => rw [h _ hp]; rfl

/-- A value stored once under its key is found in any order of the pairs. -/
theorem lastWhere_perm [DecidableEq α] {l m : List (α × β)} (hkeys : (l.map Prod.fst).Nodup)
    (hperm : l.Perm m) (k : α) : lastWhere (fun a => a = k) l = lastWhere (fun a => a = k) m := by
  have hfilter := hperm.filter fun e => decide (e.1 = k)
  have hone : (l.filter fun e => decide (e.1 = k)).length ≤ 1 := by
    have hcount := List.nodup_iff_count_le_one.mp hkeys k
    rw [List.count, List.countP_map, List.countP_eq_length_filter] at hcount
    exact hcount
  unfold lastWhere
  generalize (l.filter fun e => decide (e.1 = k)) = kept at hfilter hone ⊢
  match kept, hone with
  | [], _ => rw [hfilter.nil_eq]
  | [e], _ => rw [List.singleton_perm.mp hfilter]

theorem lastWhere_append (p : α → Bool) (l m : List (α × β)) :
    lastWhere p (l ++ m) = (lastWhere p m).or (lastWhere p l) := by
  unfold lastWhere
  rw [List.filter_append, List.getLast?_append]
  cases (m.filter fun e => p e.1).getLast? <;> simp

theorem lastWhere_cons (p : α → Bool) (e : α × β) (l : List (α × β)) :
    lastWhere p (e :: l) = (lastWhere p l).or (if p e.1 then some e.2 else none) := by
  rw [← List.singleton_append, lastWhere_append]
  congr 1
  by_cases hp : p e.1 <;> simp [lastWhere, hp]

theorem lastWhere_map (p : α → Bool) (f : β → γ) (l : List (α × β)) :
    lastWhere p (l.map fun e => (e.1, f e.2)) = (lastWhere p l).map f := by
  unfold lastWhere
  rw [List.filter_map, List.getLast?_map]
  simp [Function.comp_def]

theorem lastWhere_isSome {p : α → Bool} {l : List (α × β)} (h : a ∈ l) (hp : p a.1) :
    ∃ b, lastWhere p l = some b := by
  have hm : a ∈ l.filter fun e => p e.1 := List.mem_filter.mpr ⟨h, hp⟩
  have he := List.getLast?_eq_getLast_of_ne_nil (List.ne_nil_of_mem hm)
  exact ⟨_, by rw [lastWhere, he]; rfl⟩

theorem lastWhere_eq_none {p : α → Bool} {l : List (α × β)} (h : ∀ e ∈ l, p e.1 = false) :
    lastWhere p l = none := by
  have hfilter : (l.filter fun e => p e.1) = [] := by
    rw [List.filter_eq_nil_iff]
    intro e he
    simp [h e he]
  rw [lastWhere, hfilter]
  rfl

theorem mem_of_lastWhere {p : α → Bool} {l : List (α × β)} (h : lastWhere p l = some b) :
    ∃ a, (a, b) ∈ l ∧ p a := by
  obtain ⟨⟨a, b'⟩, he, rfl⟩ := Option.map_eq_some_iff.mp h
  have hm := List.mem_filter.mp (List.mem_of_getLast? he)
  exact ⟨a, hm⟩

theorem lastIndex_lt {p : α → Bool} {l : List α} (h : lastIndex p l = some i) :
    i < l.length := by
  induction l generalizing i with
  | nil => cases h
  | cons a l ih =>
    rw [lastIndex] at h
    cases hl : lastIndex p l with
    | none =>
      by_cases hp : p a
      · simp only [hl, hp, Option.map_none, Option.none_or, if_true, Option.some.injEq] at h
        subst h
        exact Nat.zero_lt_succ _
      · simp [hl, hp] at h
    | some j =>
      simp only [hl, Option.map_some, Option.some_or, Option.some.injEq] at h
      subst h
      exact Nat.succ_lt_succ (ih hl)

/-- Looking a key up by its index reads the last value stored under that key. -/
theorem getElem?_lastIndex (p : α → Bool) {l : List α} {v : List β} (h : v.length = l.length) :
    (lastIndex p l).bind (v[·]?) = lastWhere p (l.zip v) := by
  induction l generalizing v with
  | nil => rfl
  | cons a l ih =>
    cases v with
    | nil => cases h
    | cons b v =>
      have ih := ih (Nat.succ.inj h)
      rw [List.zip_cons_cons, lastWhere_cons, ← ih, lastIndex]
      cases hl : lastIndex p l with
      | none =>
        by_cases hp : p a <;> simp [hp]
      | some i =>
        have hi : i < v.length := (lastIndex_lt hl).trans_eq (Nat.succ.inj h).symm
        simp [hi]

/-- Two aligned lists with the same last value for a key find it at some index each, or not at all. -/
theorem lastIndex_pair {p : α → Bool} {l₁ l₂ : List α} {v₁ v₂ : List β}
    (hlen₁ : v₁.length = l₁.length) (hlen₂ : v₂.length = l₂.length)
    (h : lastWhere p (l₁.zip v₁) = lastWhere p (l₂.zip v₂)) :
    (lastIndex p l₁ = none ∧ lastIndex p l₂ = none) ∨
      ∃ i₁ i₂ b, lastIndex p l₁ = some i₁ ∧ lastIndex p l₂ = some i₂ ∧
        v₁[i₁]? = some b ∧ v₂[i₂]? = some b := by
  rw [← getElem?_lastIndex p hlen₁, ← getElem?_lastIndex p hlen₂] at h
  have hfound : ∀ {l : List α} {v : List β} {i}, v.length = l.length → lastIndex p l = some i →
      ∃ b, v[i]? = some b := fun hlen hi =>
    ⟨_, List.getElem?_eq_getElem ((lastIndex_lt hi).trans_eq hlen.symm)⟩
  cases h₁ : lastIndex p l₁ with
  | none =>
    cases h₂ : lastIndex p l₂ with
    | none => exact .inl ⟨rfl, rfl⟩
    | some i₂ =>
      obtain ⟨b, hb⟩ := hfound hlen₂ h₂
      simp [h₁, h₂, hb] at h
  | some i₁ =>
    obtain ⟨b, hb⟩ := hfound hlen₁ h₁
    cases h₂ : lastIndex p l₂ with
    | none => simp [h₁, h₂, hb] at h
    | some i₂ =>
      simp only [h₁, h₂, Option.bind_some, hb] at h
      exact .inr ⟨i₁, i₂, b, rfl, rfl, hb, h.symm⟩

/-- A filter that once false stays false takes the front of a list. -/
theorem filter_append_filter_not {p : α → Bool} {l : List α}
    (h : l.Pairwise fun a b => p b = true → p a = true) :
    l.filter p ++ l.filter (fun a => !p a) = l := by
  induction l with
  | nil => rfl
  | cons a l ih =>
    rw [List.pairwise_cons] at h
    cases hp : p a with
    | true => simpa [hp] using ih h.2
    | false =>
      have hlater : l.filter p = [] := by
        rw [List.filter_eq_nil_iff]
        intro b hb htrue
        exact Bool.false_ne_true (hp.symm.trans (h.1 b hb htrue))
      have ih := ih h.2
      rw [hlater, List.nil_append] at ih
      simp [hp, hlater, ih]

end QuantAgent
