import Mathlib.Tactic

namespace QuantAgent
set_option autoImplicit true

/-- A tree of labelled nodes with any number of children. -/
inductive Tree (α : Type) where
  | node (label : α) (children : List (Tree α))

namespace Tree

def label : Tree α → α
  | node a _ => a

def children : Tree α → List (Tree α)
  | node _ cs => cs

/-- The subtree at a position: the path of child indices that leads to it. -/
def at? : List ℕ → Tree α → Option (Tree α)
  | [], t => some t
  | i :: p, t => t.children[i]?.bind (at? p)

/-- The first child whose label `p` accepts. -/
def child? (p : α → Bool) (t : Tree α) : Option (Tree α) := t.children.find? fun c => p c.label

mutual

def depth : Tree α → ℕ
  | node _ cs => 1 + depthAll cs

def depthAll : List (Tree α) → ℕ
  | [] => 0
  | c :: cs => max c.depth (depthAll cs)

end

/-- The nodes of `n` levels from `ts` down, level by level. -/
def levels : ℕ → List (Tree α) → List (Tree α)
  | 0, _ => []
  | n + 1, ts => ts ++ levels n (ts.flatMap children)

/-- All nodes, breadth first. -/
def walk (t : Tree α) : List (Tree α) := levels t.depth [t]

theorem at?_cons_of_child {t : Tree α} (h : t.children[i]? = some c) : t.at? (i :: p) = c.at? p := by
  rw [at?, h, Option.bind_some]

theorem at?_append (p q : List ℕ) (t : Tree α) : t.at? (p ++ q) = (t.at? p).bind (at? q) := by
  induction p generalizing t with
  | nil => rfl
  | cons i p ih =>
    rw [List.cons_append, at?, at?]
    cases t.children[i]? with
    | none => rfl
    | some c => exact ih c

theorem at?_child {t n : Tree α} (hn : t.at? p = some n) (hc : n.children[i]? = some c) :
    t.at? (p ++ [i]) = some c := by
  rw [at?_append, hn, Option.bind_some, at?, hc]
  rfl

end Tree
end QuantAgent
