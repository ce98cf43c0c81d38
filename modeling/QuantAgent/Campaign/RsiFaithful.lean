import QuantAgent.Campaign.RsiStatements
import QuantAgent.Lib.PyText

namespace QuantAgent.RsiRules
set_option autoImplicit true

theorem rsiAction_buy : rsiAction context = some .buy ↔
    RsiAction.buy.foundIn context = true ∧ ¬ RsiAction.sell.foundIn context = true := by
  rw [rsiAction]
  cases RsiAction.buy.foundIn context <;> cases RsiAction.sell.foundIn context <;> simp

theorem rsiAction_sell : rsiAction context = some .sell ↔
    RsiAction.sell.foundIn context = true ∧ ¬ RsiAction.buy.foundIn context = true := by
  rw [rsiAction]
  cases RsiAction.buy.foundIn context <;> cases RsiAction.sell.foundIn context <;> simp

/-- The order in which `_rsi_operator` looks for the comparisons. -/
def RsiOperator.rank : RsiOperator → ℕ
  | lte => 0
  | gte => 1
  | lt => 2
  | gt => 3

section
variable (before after : List Char)

/-- A comparison is read right when none that is looked for earlier is named, and it is named itself
or nothing is and it is the default. -/
def RsiOperator.First (t : RsiThreshold) (o : RsiOperator) : Prop :=
  (∀ o' : RsiOperator, o'.rank < o.rank → ¬ o'.Named before after) ∧
    (o.Named before after ∨ (∀ o' : RsiOperator, ¬ o'.Named before after) ∧ o = t.defaultOperator)

end

theorem rsiOperator_iff : rsiOperator context t = o ↔
    o.First (around context t).1 (around context t).2 t := by
  generalize hwindow : around context t = window
  obtain ⟨before, after⟩ := window
  have hread : rsiOperator context t = if RsiOperator.lte.Named before after then .lte
      else if RsiOperator.gte.Named before after then .gte
      else if RsiOperator.lt.Named before after then .lt
      else if RsiOperator.gt.Named before after then .gt else t.defaultOperator := by
    rw [rsiOperator, hwindow]
  have hall : ∀ P : RsiOperator → Prop, (∀ o, P o) ↔ P .lte ∧ P .gte ∧ P .lt ∧ P .gt := by
    intro P
    constructor
    · exact fun h => ⟨h .lte, h .gte, h .lt, h .gt⟩
    · rintro ⟨hlte, hgte, hlt, hgt⟩ o
      cases o <;> assumption
  have hdefault : t.defaultOperator = .lte ∨ t.defaultOperator = .gte := by
    cases t with
    | low => exact .inl rfl
    | high => exact .inr rfl
  rw [hread, RsiOperator.First, hall, hall]
  by_cases hlte : RsiOperator.lte.Named before after
  · cases o <;> simp [hlte, RsiOperator.rank]
  by_cases hgte : RsiOperator.gte.Named before after
  · cases o <;> simp [hlte, hgte, RsiOperator.rank]
  by_cases hlt : RsiOperator.lt.Named before after
  · cases o <;> simp [hlte, hgte, hlt, RsiOperator.rank]
  by_cases hgt : RsiOperator.gt.Named before after
  · cases o <;> simp [hlte, hgte, hlt, hgt, RsiOperator.rank]
  · rcases hdefault with hd | hd
    · cases o <;> simp [hlte, hgte, hlt, hgt, hd]
    · cases o <;> simp [hlte, hgte, hlt, hgt, hd]

namespace RsiStatement
variable {isDecimal : Char → Bool} {text : List Char} (S : RsiStatement isDecimal text)

/-- The sides are read right: the second clause's word follows its number, or the first clause's
word is within reach of its own number and the default side is meant, or the word between the
numbers is within reach of the second one and the first word is not. -/
def SideRead : Prop :=
  S.second < S.place₂ ∨ S.bought = .low ∧ S.first ≤ S.place₁ + 12 ∨
    S.bought = .high ∧ S.second ≤ S.place₂ + 12 ∧ S.place₁ + 12 < S.second

theorem second_length : S.second + 2 ≤ text.length := by
  have hnext := S.start_next S.leading.other
  rw [start, next, if_neg (RsiThreshold.other_ne _), if_neg (RsiThreshold.other_ne _)] at hnext
  exact hnext

theorem word₂_ne_nil : S.word₂ ≠ [] := by
  have hmem := S.action₂
  intro hnil
  rw [hnil] at hmem
  split at hmem
  · exact absurd hmem (by decide)
  · exact absurd hmem (by decide)

theorem side_iff : (rsiAction (S.context .high) = some .buy ∨
    rsiAction (S.context .low) = some .sell ↔ S.bought = .high) ↔ S.SideRead := by
  have hfirst := S.first_second
  have hend := S.second_length
  have hlength := S.occurs₂.length_le S.word₂_ne_nil
  have hown₁ := S.own₁
  have hown₂ := S.own₂
  have horder := S.order
  have h₁l := S.foundIn_first .low
  have h₁h := S.foundIn_first .high
  have h₂l := S.foundIn_second .low
  have h₂h := S.foundIn_second .high
  rw [rsiAction_buy, rsiAction_sell, SideRead]
  cases hleading : S.leading <;> cases hbought : S.bought
  all_goals
    simp only [hleading, hbought, if_true, if_false, start, next, reduceCtorEq] at h₁l h₁h h₂l h₂h
    simp only [h₁l, h₁h, h₂l, h₂h, reduceCtorEq, false_and, true_and, false_or, or_false, iff_false,
      iff_true]
    omega

/-- Where the number is written last before its context ends, if need be inside a longer number. -/
def written (t : RsiThreshold) : ℕ := (rfind t.digits (text.take (S.next t))).getD 0

/-- The eight characters before that place, no farther back than twelve before the number. -/
def before (t : RsiThreshold) : List Char :=
  pySlice (max (S.written t - 8) (S.start t - 12)) (S.written t) text

/-- The twelve characters after it, no farther than the next number. -/
def after (t : RsiThreshold) : List Char :=
  pySlice (S.written t + 2) (min (S.written t + 14) (S.next t)) text

theorem around_context (t : RsiThreshold) : around (S.context t) t = (S.before t, S.after t) := by
  have hdigits := t.length_digits
  have hend : S.start t + t.digits.length ≤ S.next t := by
    rw [hdigits]
    exact S.start_next t
  obtain ⟨j, htake, hstart, hfind⟩ := rfind_pySlice t.digits_ne_nil (S.occurs_digits t)
    (Nat.sub_le (S.start t) 12) hend
  have hwritten : S.written t = j := by rw [written, htake, Option.getD_some]
  have hnext := ((occurs_take t.digits_ne_nil).mp (rfind_spec t.digits_ne_nil htake).1).2
  rw [hdigits] at hnext
  rw [context, around, hfind, before, after, hwritten]
  simp only [pySlice_pySlice]
  congr 2 <;> omega

theorem length_symbol_le (o : RsiOperator) : o.symbol.length ≤ 2 := by
  cases o <;> decide

theorem length_word (o : RsiOperator) : o.word.length = 2 := by
  cases o <;> decide

/-- A number that is not written again shows its own comparison. -/
theorem named_of_once (t : RsiThreshold) (hwritten : S.written t = S.start t) :
    (S.operator t).Named (S.before t) (S.after t) := by
  have hsymbol := length_symbol_le (S.operator t)
  have hword := length_word (S.operator t)
  have hsign : (S.operator t).symbol ≠ [] := by
    cases S.operator t <;> exact List.cons_ne_nil _ _
  have hname : (S.operator t).word ≠ [] := List.length_pos_iff.mp (by omega)
  rcases S.attached t with ⟨hle, hoccurs⟩ | ⟨hoccurs, hle⟩
  · left
    exact (infix_pySlice hsign).mpr ⟨_, hoccurs, by omega, by omega⟩
  · right; right
    exact (infix_pySlice hname).mpr ⟨_, hoccurs, by omega, by omega⟩

/-- The comparison is read right: none that is looked for earlier stands in the window; and where
the number is written again, its own stands there, or none and it is the default. -/
def OperatorRead (t : RsiThreshold) : Prop :=
  (∀ o : RsiOperator, o.rank < (S.operator t).rank → ¬ o.Named (S.before t) (S.after t)) ∧
    (S.written t ≠ S.start t → (S.operator t).Named (S.before t) (S.after t) ∨
      (∀ o : RsiOperator, ¬ o.Named (S.before t) (S.after t)) ∧ S.operator t = t.defaultOperator)

theorem operator_iff (t : RsiThreshold) :
    rsiOperator (S.context t) t = S.operator t ↔ S.OperatorRead t := by
  rw [rsiOperator_iff, S.around_context, RsiOperator.First, OperatorRead]
  apply and_congr_right
  intro _
  constructor
  · exact fun h _ => h
  · intro h
    by_cases hwritten : S.written t = S.start t
    · exact .inl (S.named_of_once t hwritten)
    · exact h hwritten

end RsiStatement

/-- The rules are the ones a text states if and only if its words and its comparisons are read right. -/
theorem rsiTradeRules_stated_iff {query : String}
    (S : RsiStatement isDecimal (normalized casefold isSpace query)) :
    rsiTradeRules casefold isSpace isDecimal query = S.stated ↔
      S.SideRead ∧ ∀ t, S.OperatorRead t := by
  have hside := S.side_iff
  have hoperators : (∀ t, S.OperatorRead t) ↔
      rsiOperator (S.context .low) .low = S.operator .low ∧
        rsiOperator (S.context .high) .high = S.operator .high := by
    rw [S.operator_iff, S.operator_iff]
    constructor
    · exact fun h => ⟨h .low, h .high⟩
    · rintro ⟨hlow, hhigh⟩ t
      cases t with
      | low => exact hlow
      | high => exact hhigh
  rw [hoperators, ← hside]
  simp only [rsiTradeRules, rsiThresholdContexts, S.get?_contexts, Option.getD_some]
  by_cases hover : rsiAction (S.context .high) = some .buy ∨ rsiAction (S.context .low) = some .sell
  · rw [if_pos hover, iff_true_left hover]
    cases hbought : S.bought with
    | low => simp [RsiStatement.stated, hbought]
    | high =>
      simp [RsiStatement.stated, hbought, RsiThreshold.value, RsiThreshold.other, and_comm]
  · rw [if_neg hover, iff_false_left hover]
    cases hbought : S.bought with
    | low => simp [RsiStatement.stated, hbought, RsiThreshold.value, RsiThreshold.other]
    | high => simp [RsiStatement.stated, hbought]

section HighFirst

/-- "RSI>70 매도, RSI<30 매수" in lower case and without its blanks. -/
def highFirst : List Char := "rsi>70매도,rsi<30매수".toList

example : thresholdMatches Char.isDigit none 0 highFirst = [(4, .high), (13, .low)] := by decide +kernel

/-- Every place of an action word in it. -/
theorem highFirst_words : ∀ action : RsiAction, ∀ token ∈ action.tokens, ∀ place,
    Occurs token highFirst place →
      token = "매도".toList ∧ place = 6 ∨ token = "매수".toList ∧ place = 15 := by
  have hcheck : ∀ action ∈ [RsiAction.buy, .sell], ∀ token ∈ action.tokens,
      token ≠ [] ∧ ∀ place < highFirst.length + 1, Occurs token highFirst place →
        token = "매도".toList ∧ place = 6 ∨ token = "매수".toList ∧ place = 15 := by
    decide +kernel
  intro action token htoken place hoccurs
  have hmem : action ∈ [RsiAction.buy, .sell] := by
    cases action <;> decide
  obtain ⟨hne, hplaces⟩ := hcheck action hmem token htoken
  have hle := hoccurs.length_le hne
  exact hplaces place (by omega) hoccurs

abbrev highFirstText : List Char := normalized pyLower isPySpace "RSI>70 매도, RSI<30 매수"

/-- The thresholds, the clauses and the action words of the text, evaluated once. -/
theorem highFirst_clauses : highFirstText = highFirst ∧
    thresholdMatches Char.isDigit none 0 highFirstText = [(4, .high), (13, .low)] ∧
      Attached highFirstText .gt 4 13 ∧ Attached highFirstText .lt 13 highFirstText.length ∧
        Occurs "매도".toList highFirstText 6 ∧ Occurs "매수".toList highFirstText 15 := by
  decide +kernel

theorem highFirst_thresholds :
    thresholdMatches Char.isDigit none 0 highFirstText = [(4, .high), (13, .low)] :=
  highFirst_clauses.2.1

theorem highFirst_attached_first : Attached highFirstText .gt 4 13 := highFirst_clauses.2.2.1

theorem highFirst_attached_second : Attached highFirstText .lt 13 highFirstText.length :=
  highFirst_clauses.2.2.2.1

theorem highFirst_occurs₁ : Occurs "매도".toList highFirstText 6 := highFirst_clauses.2.2.2.2.1

theorem highFirst_occurs₂ : Occurs "매수".toList highFirstText 15 := highFirst_clauses.2.2.2.2.2

theorem highFirst_action₁ : "매도".toList ∈ RsiAction.sell.tokens := by decide

theorem highFirst_action₂ : "매수".toList ∈ RsiAction.buy.tokens := by decide

theorem highFirst_only : ∀ action : RsiAction, ∀ token ∈ action.tokens, ∀ place,
    Occurs token highFirstText place →
      token = "매도".toList ∧ place = 6 ∨ token = "매수".toList ∧ place = 15 := by
  rw [highFirst_clauses.1]
  exact highFirst_words

theorem highFirst_own₁ : 6 + "매도".toList.length ≤ 4 ∨ 4 + 2 ≤ 6 ∧ 6 + "매도".toList.length ≤ 13 := by
  decide

theorem highFirst_own₂ :
    4 + 2 ≤ 15 ∧ 15 + "매수".toList.length ≤ 13 ∨ 13 + 2 ≤ 15 := by decide

theorem highFirst_order : 6 < 15 := by decide

def highFirstStatement : RsiStatement Char.isDigit
    (normalized pyLower isPySpace "RSI>70 매도, RSI<30 매수") where
  first := 4
  second := 13
  leading := .high
  thresholds := highFirst_thresholds
  operator := fun t => match t with
    | .low => .lt
    | .high => .gt
  attached_first := highFirst_attached_first
  attached_second := highFirst_attached_second
  bought := .low
  word₁ := "매도".toList
  word₂ := "매수".toList
  place₁ := 6
  place₂ := 15
  occurs₁ := highFirst_occurs₁
  occurs₂ := highFirst_occurs₂
  action₁ := highFirst_action₁
  action₂ := highFirst_action₂
  only := highFirst_only
  own₁ := highFirst_own₁
  own₂ := highFirst_own₂
  order := highFirst_order

/-- The comparison of the second clause is read for the first one. -/
theorem high_first_operator_misread :
    highFirstStatement.stated = ⟨.oversold, 30, .lt, 70, .gt⟩ ∧
      rsiTradeRules pyLower isPySpace Char.isDigit "RSI>70 매도, RSI<30 매수" =
        ⟨.oversold, 30, .lt, 70, .lt⟩ ∧
      rsiTradeRules pyLower isPySpace Char.isDigit "RSI>70 매도, RSI<30 매수" ≠
        highFirstStatement.stated :=
  ⟨rfl, by decide +kernel, by decide +kernel⟩

end HighFirst

end QuantAgent.RsiRules
