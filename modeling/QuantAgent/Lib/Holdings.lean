import Mathlib.Data.Finset.Card
import Mathlib.Tactic

namespace QuantAgent.Holdings
set_option autoImplicit true

/-! The names a book holds while the orders of one session after the other are executed. -/

/-- The names one session sells and the names it buys. -/
structure Orders (α : Type u) where
  sells : Finset α
  buys : Finset α
deriving DecidableEq

/-- An order for one name. -/
inductive Trade where
  | buy
  | sell
deriving DecidableEq, Repr

namespace Orders
variable [DecidableEq α] {orders : Orders α} {held : Finset α} {name : α}

/-- What is held behind the session. -/
def apply (orders : Orders α) (held : Finset α) : Finset α := held \ orders.sells ∪ orders.buys

/-- Only held names are sold, and only other names are bought. -/
structure Legal (orders : Orders α) (held : Finset α) : Prop where
  sells : orders.sells ⊆ held
  buys : Disjoint orders.buys held

instance (orders : Orders α) (held : Finset α) : Decidable (orders.Legal held) :=
  decidable_of_iff (orders.sells ⊆ held ∧ Disjoint orders.buys held)
    ⟨fun h => ⟨h.1, h.2⟩, fun h => ⟨h.sells, h.buys⟩⟩

/-- The order of the session for a name. -/
def trade? (orders : Orders α) (name : α) : Option Trade :=
  if name ∈ orders.sells then some .sell else if name ∈ orders.buys then some .buy else none

theorem mem_apply : name ∈ orders.apply held ↔
    (name ∈ held ∧ name ∉ orders.sells) ∨ name ∈ orders.buys := by
  rw [apply, Finset.mem_union, Finset.mem_sdiff]

omit [DecidableEq α] in
/-- A name that is sold is not bought in the same session. -/
theorem Legal.disjoint (h : orders.Legal held) : Disjoint orders.sells orders.buys :=
  (h.buys.mono_right h.sells).symm

theorem Legal.card_apply (h : orders.Legal held) :
    (orders.apply held).card + orders.sells.card = held.card + orders.buys.card := by
  have hdisjoint : Disjoint (held \ orders.sells) orders.buys :=
    h.buys.symm.mono_left Finset.sdiff_subset
  have hkept := Finset.card_sdiff_add_card_eq_card h.sells
  rw [apply, Finset.card_union_of_disjoint hdisjoint]
  omega

end Orders

section Replay
variable {reset : Option ℕ} {number : ℕ} {held : Finset α}

/-- What is held when the session with this number opens: nothing, where the book is emptied before it. -/
def opening (reset : Option ℕ) (number : ℕ) (held : Finset α) : Finset α :=
  if reset = some number then ∅ else held

@[simp] theorem opening_none : opening none number held = held := if_neg nofun

theorem opening_of_ne (h : reset ≠ some number) : opening reset number held = held := if_neg h

@[simp] theorem opening_self : opening (some number) number held = ∅ := if_pos rfl

variable [DecidableEq α]

/-- What is held behind each session, from the one with this number on; `none` where an order cannot be
executed. -/
def replay (reset : Option ℕ) : ℕ → Finset α → List (Orders α) → Option (List (Finset α))
  | _, _, [] => some []
  | number, held, orders :: later =>
    if orders.Legal (opening reset number held) then
      (replay reset (number + 1) (orders.apply (opening reset number held)) later).map
        (orders.apply (opening reset number held) :: ·)
    else none

/-- The orders for one name, in turn. -/
def trades (name : α) (sessions : List (Orders α)) : List Trade :=
  sessions.filterMap fun orders => orders.trade? name

/-- Buys and sells in turn; a book that holds the name sells first. -/
def Alternates : Bool → List Trade → Prop
  | _, [] => True
  | false, .buy :: later => Alternates true later
  | true, .sell :: later => Alternates false later
  | _, _ => False

instance decidableAlternates : ∀ held sessions, Decidable (Alternates held sessions)
  | true, [] => isTrue trivial
  | false, [] => isTrue trivial
  | false, .buy :: later => decidableAlternates true later
  | true, .sell :: later => decidableAlternates false later
  | false, .sell :: _ => isFalse id
  | true, .buy :: _ => isFalse id

variable {orders : Orders α} {sessions front back : List (Orders α)}
  {books : List (Finset α)}

theorem replay_cons (h : orders.Legal (opening reset number held)) :
    replay reset number held (orders :: sessions) =
      (replay reset (number + 1) (orders.apply (opening reset number held)) sessions).map
        (orders.apply (opening reset number held) :: ·) := if_pos h

theorem replay_cons_some (h : replay reset number held (orders :: sessions) = some books) :
    orders.Legal (opening reset number held) ∧ ∃ later,
      replay reset (number + 1) (orders.apply (opening reset number held)) sessions = some later ∧
        books = orders.apply (opening reset number held) :: later := by
  by_cases hlegal : orders.Legal (opening reset number held)
  · rw [replay_cons hlegal] at h
    obtain ⟨later, hlater, hbooks⟩ := Option.map_eq_some_iff.mp h
    exact ⟨hlegal, later, hlater, hbooks.symm⟩
  · rw [replay, if_neg hlegal] at h
    cases h

/-- Sessions without the reset are those of a book that is never emptied. -/
theorem replay_unreset (h : ∀ k, number ≤ k → k < number + sessions.length → reset ≠ some k) :
    replay reset number held sessions = replay none number held sessions := by
  induction sessions generalizing number held with
  | nil => rfl
  | cons orders later ih =>
    rw [List.length_cons] at h
    have hlater : ∀ k, number + 1 ≤ k → k < number + 1 + later.length → reset ≠ some k :=
      fun k hk hlt => h k (by omega) (by omega)
    rw [replay, replay, opening_of_ne (h number le_rfl (by omega)), opening_none, ih hlater]

/-- A reset at the first session leaves the book of that session on. -/
theorem replay_reset_first : replay (some number) number held sessions = replay none number ∅ sessions := by
  cases sessions with
  | nil => rfl
  | cons orders later =>
    have hlater : ∀ k, number + 1 ≤ k → k < number + 1 + later.length → some number ≠ some k := by
      intro k hk _ heq
      cases heq
      omega
    rw [replay, replay, opening_self, opening_none, replay_unreset hlater]

/-- The sessions before a reset and those from it on are books of their own. -/
theorem replay_split (h : replay (some (number + front.length)) number held (front ++ back) = some books) :
    (∃ before, replay none number held front = some before) ∧
      ∃ after, replay none (number + front.length) ∅ back = some after := by
  induction front generalizing number held books with
  | nil =>
    rw [List.nil_append, List.length_nil, Nat.add_zero, replay_reset_first] at h
    exact ⟨⟨[], rfl⟩, books, h⟩
  | cons orders front ih =>
    have hshift : number + (orders :: front).length = number + 1 + front.length := by
      rw [List.length_cons]
      omega
    have hne : some (number + 1 + front.length) ≠ some number := by
      rw [ne_eq, Option.some.injEq]
      omega
    rw [hshift] at h ⊢
    obtain ⟨hlegal, later, hlater, -⟩ := replay_cons_some h
    rw [opening_of_ne hne] at hlegal hlater
    obtain ⟨⟨before, hbefore⟩, after, hafter⟩ := ih hlater
    refine ⟨⟨orders.apply held :: before, ?_⟩, after, hafter⟩
    have hopening : orders.Legal (opening none number held) := by rwa [opening_none]
    rw [replay_cons hopening, opening_none, hbefore]
    rfl

/-- A book that can execute its orders buys and sells each name in turn. -/
theorem replay_alternates (h : replay none number held sessions = some books) (name : α) :
    Alternates (decide (name ∈ held)) (trades name sessions) := by
  induction sessions generalizing number held books with
  | nil => cases decide (name ∈ held) <;> exact trivial
  | cons orders later ih =>
    obtain ⟨hlegal, books', hbooks, -⟩ := replay_cons_some h
    rw [opening_none] at hlegal hbooks
    have ih := ih hbooks
    unfold trades at ih ⊢
    rw [List.filterMap_cons]
    by_cases hsell : name ∈ orders.sells
    · have hafter : name ∉ orders.apply held := by
        rw [Orders.mem_apply, not_or]
        exact ⟨fun hkept => hkept.2 hsell, Finset.disjoint_left.mp hlegal.disjoint hsell⟩
      rw [decide_eq_true (hlegal.sells hsell), Orders.trade?, if_pos hsell]
      rwa [decide_eq_false hafter] at ih
    · by_cases hbuy : name ∈ orders.buys
      · rw [decide_eq_false (Finset.disjoint_left.mp hlegal.buys hbuy), Orders.trade?, if_neg hsell,
          if_pos hbuy]
        rwa [decide_eq_true (Orders.mem_apply.mpr (.inr hbuy))] at ih
      · have hkept : name ∈ orders.apply held ↔ name ∈ held := by
          simp [Orders.mem_apply, hsell, hbuy]
        rw [Orders.trade?, if_neg hsell, if_neg hbuy]
        rwa [decide_eq_decide.mpr hkept] at ih

/-- Before the reset and from it on, each name is bought first, and bought and sold in turn. -/
theorem alternates_of_replay (h : replay reset 0 ∅ sessions = some books) (name : α) :
    Alternates false (trades name (sessions.take (reset.getD 0))) ∧
      Alternates false (trades name (sessions.drop (reset.getD 0))) := by
  have hplain : ∀ {number books} {sessions : List (Orders α)},
      replay none number ∅ sessions = some books → Alternates false (trades name sessions) :=
    fun h => replay_alternates h name
  cases reset with
  | none => exact ⟨trivial, hplain h⟩
  | some place =>
    rw [Option.getD_some]
    by_cases hplace : place ≤ sessions.length
    · have hlength : place = 0 + (sessions.take place).length := by
        rw [List.length_take, min_eq_left hplace, Nat.zero_add]
      have hsplit : replay (some (0 + (sessions.take place).length)) 0 ∅
          (sessions.take place ++ sessions.drop place) = some books := by
        rwa [← hlength, List.take_append_drop]
      obtain ⟨⟨before, hbefore⟩, after, hafter⟩ := replay_split hsplit
      exact ⟨hplain hbefore, hplain hafter⟩
    · have hnever : ∀ k, 0 ≤ k → k < 0 + sessions.length → some place ≠ some k := by
        intro k _ hk heq
        cases heq
        omega
      rw [replay_unreset hnever] at h
      rw [List.take_of_length_le (by omega), List.drop_eq_nil_of_le (by omega)]
      exact ⟨hplain h, trivial⟩

end Replay

end QuantAgent.Holdings
