import QuantAgent.Campaign.RsiRules

namespace QuantAgent.RsiRules
set_option autoImplicit true

theorem RsiThreshold.digits_ne_nil (t : RsiThreshold) : t.digits ≠ [] := by
  cases t with
  | low => exact List.cons_ne_nil _ _
  | high => exact List.cons_ne_nil _ _

theorem RsiThreshold.length_digits (t : RsiThreshold) : t.digits.length = 2 := by
  cases t with
  | low => rfl
  | high => rfl

theorem RsiThreshold.ofDigits?_some (h : RsiThreshold.ofDigits? s = some t) : s = t.digits := by
  unfold RsiThreshold.ofDigits? at h
  split at h
  · obtain rfl := Option.some.inj h
    assumption
  · split at h
    · obtain rfl := Option.some.inj h
      assumption
    · cases h

section Matches
variable {isDecimal : Char → Bool}

/-- A match is a number that stands in the text. -/
theorem occurs_of_mem_matches (h : (j, t) ∈ thresholdMatches isDecimal prev i s) :
    i ≤ j ∧ Occurs t.digits s (j - i) := by
  fun_induction thresholdMatches isDecimal prev i s with
  | case1 => cases h
  | case2 => cases h
  | case3 prev i c d rest t' ht hfree ih =>
    rcases List.mem_cons.mp h with heq | hrest
    · obtain ⟨rfl, rfl⟩ := Prod.mk.inj heq
      refine ⟨le_rfl, ?_⟩
      rw [Nat.sub_self, Occurs, List.drop_zero, ← RsiThreshold.ofDigits?_some ht]
      exact ⟨rest, rfl⟩
    · obtain ⟨hle, hoccurs⟩ := ih hrest
      refine ⟨by omega, ?_⟩
      rw [show j - i = 2 + (j - (i + 2)) by omega, ← occurs_drop]
      exact hoccurs
  | case4 prev i c d rest t' ht hfree ih =>
    obtain ⟨hle, hoccurs⟩ := ih h
    refine ⟨by omega, ?_⟩
    rw [show j - i = 1 + (j - (i + 1)) by omega, ← occurs_drop]
    exact hoccurs
  | case5 prev i c d rest ht ih =>
    obtain ⟨hle, hoccurs⟩ := ih h
    refine ⟨by omega, ?_⟩
    rw [show j - i = 1 + (j - (i + 1)) by omega, ← occurs_drop]
    exact hoccurs

variable (isDecimal) in
/-- Matches do not overlap. -/
theorem matches_pairwise (prev : Option Char) (i : ℕ) (s : List Char) :
    (thresholdMatches isDecimal prev i s).Pairwise fun a b => a.1 + 2 ≤ b.1 := by
  fun_induction thresholdMatches isDecimal prev i s with
  | case1 => exact .nil
  | case2 => exact .nil
  | case3 prev i c d rest t ht hfree ih =>
    exact .cons (fun b hb => (occurs_of_mem_matches hb).1) ih
  | case4 prev i c d rest t ht hfree ih => exact ih
  | case5 prev i c d rest ht ih => exact ih

end Matches

theorem RsiThreshold.other_ne (t : RsiThreshold) : t.other ≠ t := by
  cases t with
  | low => exact RsiThreshold.noConfusion
  | high => exact RsiThreshold.noConfusion

theorem RsiThreshold.eq_or_other (t t' : RsiThreshold) : t = t' ∨ t = t'.other := by
  cases t <;> cases t' <;> decide

/-- The comparison is written at the number in `start`: its sign right before it, or its word right
after it and before the place `next`. -/
def Attached (text : List Char) (o : RsiOperator) (start next : ℕ) : Prop :=
  o.symbol.length ≤ start ∧ Occurs o.symbol text (start - o.symbol.length) ∨
    Occurs o.word text (start + 2) ∧ start + 4 ≤ next

instance (text : List Char) (o : RsiOperator) (start next : ℕ) :
    Decidable (Attached text o start next) :=
  inferInstanceAs (Decidable (_ ∧ _ ∨ _ ∧ _))

/-- A text that states one clause for each threshold: where the numbers stand, the comparison
attached to each of them, and the one action word of each clause, before or after its number. -/
structure RsiStatement (isDecimal : Char → Bool) (text : List Char) where
  first : ℕ
  second : ℕ
  leading : RsiThreshold
  thresholds : thresholdMatches isDecimal none 0 text = [(first, leading), (second, leading.other)]
  operator : RsiThreshold → RsiOperator
  attached_first : Attached text (operator leading) first second
  attached_second : Attached text (operator leading.other) second text.length
  bought : RsiThreshold
  word₁ : List Char
  word₂ : List Char
  place₁ : ℕ
  place₂ : ℕ
  occurs₁ : Occurs word₁ text place₁
  occurs₂ : Occurs word₂ text place₂
  action₁ : word₁ ∈ (if leading = bought then RsiAction.buy else .sell).tokens
  action₂ : word₂ ∈ (if leading = bought then RsiAction.sell else .buy).tokens
  only : ∀ action : RsiAction, ∀ token ∈ action.tokens, ∀ place, Occurs token text place →
    token = word₁ ∧ place = place₁ ∨ token = word₂ ∧ place = place₂
  own₁ : place₁ + word₁.length ≤ first ∨
    first + 2 ≤ place₁ ∧ place₁ + word₁.length ≤ second
  own₂ : first + 2 ≤ place₂ ∧ place₂ + word₂.length ≤ second ∨ second + 2 ≤ place₂
  order : place₁ < place₂

namespace RsiStatement
variable {isDecimal : Char → Bool} {text : List Char} (S : RsiStatement isDecimal text)

/-- What the text says: buy at the one threshold, sell at the other, each by its own comparison. -/
def stated : RsiTradeRules where
  entrySide := match S.bought with
    | .low => .oversold
    | .high => .overbought
  entryThreshold := S.bought.value
  entryOperator := S.operator S.bought
  exitThreshold := S.bought.other.value
  exitOperator := S.operator S.bought.other

def start (t : RsiThreshold) : ℕ := if t = S.leading then S.first else S.second

def next (t : RsiThreshold) : ℕ := if t = S.leading then S.second else text.length

def context (t : RsiThreshold) : List Char := pySlice (S.start t - 12) (S.next t) text

theorem first_second : S.first + 2 ≤ S.second := by
  have hpair := matches_pairwise isDecimal none 0 text
  rw [S.thresholds] at hpair
  exact (List.pairwise_cons.mp hpair).1 _ (List.mem_singleton_self _)

theorem occurs_digits (t : RsiThreshold) : Occurs t.digits text (S.start t) := by
  have hmem : (S.start t, t) ∈ thresholdMatches isDecimal none 0 text := by
    rw [S.thresholds, start]
    rcases t.eq_or_other S.leading with rfl | rfl
    · rw [if_pos rfl]
      exact List.mem_cons_self
    · rw [if_neg (RsiThreshold.other_ne _)]
      exact List.mem_cons_of_mem _ (List.mem_singleton_self _)
  exact (occurs_of_mem_matches hmem).2

theorem start_next (t : RsiThreshold) : S.start t + 2 ≤ S.next t := by
  rw [start, next]
  split
  · exact S.first_second
  · have hlen := (S.occurs_digits S.leading.other).length_le (RsiThreshold.digits_ne_nil _)
    rw [RsiThreshold.length_digits, start, if_neg (RsiThreshold.other_ne _)] at hlen
    exact hlen

theorem attached (t : RsiThreshold) : Attached text (S.operator t) (S.start t) (S.next t) := by
  rw [start, next]
  rcases t.eq_or_other S.leading with rfl | rfl
  · rw [if_pos rfl, if_pos rfl]
    exact S.attached_first
  · rw [if_neg (RsiThreshold.other_ne _), if_neg (RsiThreshold.other_ne _)]
    exact S.attached_second

/-- The context of a number is the part of the text between its bounds. -/
theorem get?_contexts (t : RsiThreshold) :
    (contextsOf text (thresholdMatches isDecimal none 0 text) Dict.empty).get? t =
      some (S.context t) := by
  rw [S.thresholds, contextsOf, contextsOf, Dict.get?_insert, Dict.get?_insert, context, start, next]
  rcases t.eq_or_other S.leading with rfl | rfl
  · rw [if_neg (RsiThreshold.other_ne _).symm, if_pos rfl, if_pos rfl, if_pos rfl]
  · rw [if_pos rfl, if_neg (RsiThreshold.other_ne _), if_neg (RsiThreshold.other_ne _)]

/-- A word that stands in one place is seen in a context that reaches over that place. -/
theorem foundIn_iff {action : RsiAction} {word : List Char} {place : ℕ} (hword : word ∈ action.tokens)
    (hoccurs : Occurs word text place)
    (honly : ∀ token ∈ action.tokens, ∀ i, Occurs token text i → token = word ∧ i = place)
    (t : RsiThreshold) : action.foundIn (S.context t) = true ↔
      S.start t ≤ place + 12 ∧ place + word.length ≤ S.next t := by
  have hne : ∀ token ∈ action.tokens, token ≠ [] := by
    cases action <;> decide
  rw [RsiAction.foundIn, List.any_eq_true]
  constructor
  · rintro ⟨token, htoken, hin⟩
    obtain ⟨i, hi, hstart, hnext⟩ := (infix_pySlice (hne token htoken)).mp (of_decide_eq_true hin)
    obtain ⟨rfl, rfl⟩ := honly token htoken i hi
    exact ⟨by omega, hnext⟩
  · rintro ⟨hstart, hnext⟩
    refine ⟨word, hword, decide_eq_true ((infix_pySlice (hne word hword)).mpr ?_)⟩
    exact ⟨place, hoccurs, by omega, hnext⟩

theorem foundIn_first (t : RsiThreshold) :
    (if S.leading = S.bought then RsiAction.buy else .sell).foundIn (S.context t) = true ↔
      S.start t ≤ S.place₁ + 12 ∧ S.place₁ + S.word₁.length ≤ S.next t := by
  apply S.foundIn_iff S.action₁ S.occurs₁
  intro token htoken i hi
  rcases S.only _ token htoken i hi with h | ⟨rfl, -⟩
  · exact h
  · have hother := S.action₂
    have hdisjoint : ∀ token ∈ RsiAction.buy.tokens, token ∉ RsiAction.sell.tokens := by decide
    split at htoken
    · rename_i hbuy
      rw [if_pos hbuy] at hother
      exact absurd hother (hdisjoint _ htoken)
    · rename_i hsell
      rw [if_neg hsell] at hother
      exact absurd htoken (hdisjoint _ hother)

theorem foundIn_second (t : RsiThreshold) :
    (if S.leading = S.bought then RsiAction.sell else .buy).foundIn (S.context t) = true ↔
      S.start t ≤ S.place₂ + 12 ∧ S.place₂ + S.word₂.length ≤ S.next t := by
  apply S.foundIn_iff S.action₂ S.occurs₂
  intro token htoken i hi
  rcases S.only _ token htoken i hi with ⟨rfl, -⟩ | h
  · have hother := S.action₁
    have hdisjoint : ∀ token ∈ RsiAction.buy.tokens, token ∉ RsiAction.sell.tokens := by decide
    split at htoken
    · rename_i hbuy
      rw [if_pos hbuy] at hother
      exact absurd htoken (hdisjoint _ hother)
    · rename_i hsell
      rw [if_neg hsell] at hother
      exact absurd hother (hdisjoint _ htoken)
  · exact h

end RsiStatement

end QuantAgent.RsiRules
