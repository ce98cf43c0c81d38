import Mathlib.Logic.Function.Basic
import Mathlib.Tactic

namespace QuantAgent
set_option autoImplicit true

/-- A call as a tree of the atomic commands it sends, each with the rest of the call for any reply. -/
inductive Prog (C : Type) (R : C → Type) (α : Type) where
  | done (a : α)
  | call (c : C) (next : R c → Prog C R α)

namespace Prog
variable {C : Type} {R : C → Type} {α β : Type}

def bind : Prog C R α → (α → Prog C R β) → Prog C R β
  | done a, f => f a
  | call c next, f => call c fun r => (next r).bind f

instance : Monad (Prog C R) where
  pure := done
  bind := bind

/-- Sends one command. -/
def send (c : C) : Prog C R (R c) := call c done

/-- One command with the reply it got. -/
abbrev Exchange (C : Type) (R : C → Type) := (c : C) × R c

/-- `p.Reaches log q`: after the exchanges of `log`, `p` goes on as `q`. -/
inductive Reaches : Prog C R α → List (Exchange C R) → Prog C R α → Prop where
  | nil : Reaches p [] p
  | cons (r : R c) : Reaches (next r) log q → Reaches (call c next) (⟨c, r⟩ :: log) q

theorem Reaches.snoc {p : Prog C R α} (h : p.Reaches log (call c next)) (r : R c) :
    p.Reaches (log ++ [⟨c, r⟩]) (next r) := by
  generalize hq : call c next = q at h
  induction h with
  | nil =>
    subst hq
    exact .cons r .nil
  | cons r' _ ih => exact .cons r' (ih hq)

theorem Reaches.of_done (h : (done a : Prog C R α).Reaches log q) : log = [] ∧ q = done a := by
  cases h
  exact ⟨rfl, rfl⟩

/-- A call that has sent its first command is past the reply to it. -/
theorem Reaches.of_call {next : R c → Prog C R α} (h : (call c next).Reaches log q) :
    log = [] ∧ q = call c next ∨ ∃ r rest, log = ⟨c, r⟩ :: rest ∧ (next r).Reaches rest q := by
  cases h with
  | nil => exact .inl ⟨rfl, rfl⟩
  | cons r h => exact .inr ⟨r, _, rfl, h⟩

/-- After the exchanges of `log`, `p` sends only commands that `P` allows and ends as `Q` says. -/
def Meets (P : List (Exchange C R) → C → Prop) (Q : List (Exchange C R) → α → Prop) :
    List (Exchange C R) → Prog C R α → Prop
  | log, done a => Q log a
  | log, call c next => P log c ∧ ∀ r, Meets P Q (log ++ [⟨c, r⟩]) (next r)

variable {P : List (Exchange C R) → C → Prop} {Q : List (Exchange C R) → α → Prop}

theorem Meets.mono {Q' : List (Exchange C R) → α → Prop} {p : Prog C R α}
    (h : Meets P Q log p) (hQ : ∀ log a, Q log a → Q' log a) : Meets P Q' log p := by
  induction p generalizing log with
  | done a => exact hQ log a h
  | call c next ih => exact ⟨h.1, fun r => ih r (h.2 r)⟩

theorem Meets.bind {Q : List (Exchange C R) → β → Prop} {p : Prog C R α} {f : α → Prog C R β}
    (h : Meets P (fun log a => Meets P Q log (f a)) log p) : Meets P Q log (p.bind f) := by
  induction p generalizing log with
  | done a => exact h
  | call c next ih => exact ⟨h.1, fun r => ih r (h.2 r)⟩

/-- What a call meets, it still meets wherever it has got to. -/
theorem Meets.of_reaches {p : Prog C R α} (h : Meets P Q log p) (hr : p.Reaches log' q) :
    Meets P Q (log ++ log') q := by
  induction hr generalizing log with
  | nil =>
    rw [List.append_nil]
    exact h
  | cons r _ ih =>
    rw [List.append_cons]
    exact ih (h.2 r)

end Prog

/-- An entry of an updated table is the new one, or an old one under another key. -/
theorem update_eq_some [DecidableEq κ] {f : κ → Option α} (h : Function.update f d (some x) c = some y) :
    c = d ∧ x = y ∨ c ≠ d ∧ f c = some y := by
  by_cases hc : c = d
  · subst hc
    rw [Function.update_self] at h
    exact .inl ⟨rfl, Option.some.inj h⟩
  · rw [Function.update_of_ne hc] at h
    exact .inr ⟨hc, h⟩

end QuantAgent
