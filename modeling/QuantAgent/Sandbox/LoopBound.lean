import QuantAgent.Sandbox.Denotation

namespace QuantAgent.Sandbox
set_option autoImplicit true

/-- A loop that a place of a program is evaluated in: the body of a `for`, its target, or a number
of the generators of a comprehension. -/
inductive LoopScope where
  | forBody
  | forTarget
  | comprehension (generators : ℕ)
deriving DecidableEq

def LoopScope.loops : LoopScope → ℕ
  | forBody | forTarget => 1
  | comprehension generators => generators

def isGenerator (c : Node) : Bool := c.label.field = "generators"

/-- The generators of a comprehension that its child at `i` is evaluated in, at the place `p` below:
all of them for the element, the earlier ones for a generator's `iter`, and the generator itself too
for its target and its conditions. -/
def generatorsAround (cs : List Node) (i : ℕ) (c : Node) (p : List ℕ) : ℕ :=
  if isGenerator c then
    match p.head?.bind fun j => c.children[j]? with
    | some part =>
      ((cs.take i).filter isGenerator).length + (if part.label.field = "iter" then 0 else 1)
    | none => ((cs.take i).filter isGenerator).length
  else (cs.filter isGenerator).length

/-- The loop that the step from a node to its child at `i` enters, on the way to the place `p` below. -/
def enters (n : Node) (i : ℕ) (c : Node) (p : List ℕ) : List LoopScope :=
  match n.cls with
  | .for_ =>
    if c.label.field = "body" then [.forBody]
    else if c.label.field = "target" then [.forTarget]
    else []
  | .listComp | .setComp | .dictComp | .generatorExp =>
    match generatorsAround n.children i c p with
    | 0 => []
    | k + 1 => [.comprehension (k + 1)]
  | _ => []

/-- The loops that a place is evaluated in, the outermost first. -/
def loopScopes : List ℕ → Node → List LoopScope
  | [], _ => []
  | i :: p, n =>
    match n.children[i]? with
    | some c => enters n i c p ++ loopScopes p c
    | none => []

/-- The number of loops a place is evaluated in. -/
def loopsAround (p : List ℕ) (n : Node) : ℕ := ((loopScopes p n).map LoopScope.loops).sum

/-- The bodies of `for` statements a place is in: the depth that the visitor counts. -/
def forDepth (p : List ℕ) (n : Node) : ℕ := (loopScopes p n).count .forBody

/-- A call of an aggregator over a slice. -/
def RollingSliceCall (n : Node) : Prop :=
  n.cls = .call ∧ ((n.get? "func").map callPath).getD "<dynamic>" ∈ rollingAggregators ∧
    (n.field "args").any containsSlice = true

/-- Nothing is evaluated in more than the allowed number of loops, there is no `while`, and no
aggregate over a slice is evaluated in a loop. -/
def LoopBounded (tree : Node) : Prop :=
  ∀ p (n : Node), tree.at? p = some n →
    loopsAround p tree ≤ maxNestedLoopDepth ∧ n.cls ≠ .while_ ∧
      (RollingSliceCall n → loopsAround p tree = 0)

/-- A loop inside a loop that is not the body of a `for`. -/
def loopInExpression : List LoopScope → Bool
  | [] => false
  | scope :: scopes => (scope ≠ .forBody && !scopes.isEmpty) || loopInExpression scopes

/-- What the visitor's counter leaves out is absent: deep loops inside a comprehension or a target,
and aggregates over a slice there, outside of all bodies of `for` statements. -/
structure NoUncountedLoop (tree : Node) : Prop where
  nested : ∀ p (n : Node), tree.at? p = some n → loopInExpression (loopScopes p tree) = true →
    loopsAround p tree ≤ maxNestedLoopDepth
  rolling : ∀ p (n : Node), tree.at? p = some n → RollingSliceCall n → forDepth p tree = 0 →
    loopsAround p tree = 0

/-- Some visit of the node at this loop depth rejects nothing. -/
def PassedAt (loopDepth : ℕ) (n : Node) : Prop :=
  ∃ functionDepth loopCount, nodeViolations functionDepth loopDepth loopCount n = []

theorem enters_forBody (n : Node) (i : ℕ) (c : Node) (p : List ℕ) :
    (enters n i c p).count .forBody =
      if n.cls = .for_ ∧ c.label.field = "body" then 1 else 0 := by
  unfold enters
  split
  · rename_i hfor
    by_cases hbody : c.label.field = "body"
    · simp [hfor, hbody]
    · by_cases htarget : c.label.field = "target" <;> simp [hfor, hbody, htarget]
  · rename_i hcls
    split <;> simp [hcls]
  · rename_i hcls
    split <;> simp [hcls]
  · rename_i hcls
    split <;> simp [hcls]
  · rename_i hcls
    split <;> simp [hcls]
  · rename_i hfor _ _ _ _
    rw [if_neg fun h => hfor h.1]
    rfl

theorem forDepth_cons {n c : Node} (hc : n.children[i]? = some c) :
    forDepth (i :: p) n =
      (if n.cls = .for_ ∧ c.label.field = "body" then 1 else 0) + forDepth p c := by
  rw [forDepth, loopScopes, hc, List.count_append, enters_forBody]
  rfl

mutual

/-- A visit that rejects nothing has passed every place below at the depth that it counts there. -/
theorem visit_passedAt (functionDepth loopDepth : ℕ) (st : VisitorState) :
    (t : Node) → (visit functionDepth loopDepth st t).violations = [] →
      st.violations = [] ∧
        ∀ p (n : Node), t.at? p = some n → PassedAt (loopDepth + forDepth p t) n
  | .node l cs, h => by
    rw [visit] at h
    obtain ⟨hbefore, hbelow⟩ := visitAll_passedAt _ _ _ _ cs h
    obtain ⟨hst, hnode⟩ := List.append_eq_nil_iff.mp hbefore
    refine ⟨hst, fun p n hn => ?_⟩
    cases p with
    | nil =>
      cases hn
      exact ⟨_, _, hnode⟩
    | cons i p =>
      obtain ⟨c, hc, hn⟩ := Option.bind_eq_some_iff.mp hn
      have hpassed := hbelow i c p n hc hn
      simp only [beq_iff_eq] at hpassed
      have hdepth : forDepth (i :: p) (.node l cs) =
          (if l.cls = .for_ ∧ c.label.field = "body" then 1 else 0) + forDepth p c := forDepth_cons hc
      rw [hdepth, ← Nat.add_assoc]
      exact hpassed

theorem visitAll_passedAt (inFor : Bool) (functionDepth loopDepth : ℕ) (st : VisitorState) :
    (cs : List Node) → (visitAll inFor functionDepth loopDepth st cs).violations = [] →
      st.violations = [] ∧ ∀ (i : ℕ) (c : Node) p (n : Node), cs[i]? = some c → c.at? p = some n →
        PassedAt (loopDepth + (if inFor = true ∧ c.label.field = "body" then 1 else 0) + forDepth p c) n
  | [], h => ⟨h, fun i c p n hc => absurd hc (by simp)⟩
  | d :: cs, h => by
    rw [visitAll] at h
    obtain ⟨hbefore, hbelow⟩ := visitAll_passedAt inFor functionDepth loopDepth _ cs h
    obtain ⟨hst, hd⟩ := visit_passedAt functionDepth _ st d hbefore
    refine ⟨hst, fun i c p n hc hn => ?_⟩
    cases i with
    | zero =>
      cases hc
      have hpassed := hd p n hn
      by_cases hbody : inFor = true ∧ d.label.field = "body"
      · rw [if_pos hbody] at hpassed ⊢
        exact hpassed
      · rw [if_neg hbody] at hpassed ⊢
        exact hpassed
    | succ i => exact hbelow i c p n hc hn

end

section
variable {n c : Node}

theorem PassedAt.not_while (h : PassedAt d n) : n.cls ≠ .while_ := by
  obtain ⟨functionDepth, loopCount, hnil⟩ := h
  intro hwhile
  rw [nodeViolations, hwhile] at hnil
  cases hnil

/-- An aggregate over a slice passes only outside of the bodies of `for` statements. -/
theorem PassedAt.rolling (h : PassedAt d n) (hcall : RollingSliceCall n) : d = 0 := by
  obtain ⟨functionDepth, loopCount, hnil⟩ := h
  obtain ⟨hcls, hname, hslice⟩ := hcall
  by_contra hd
  rw [nodeViolations, hcls] at hnil
  simp only [callViolations, List.append_eq_nil_iff] at hnil
  have hrolling := hnil.1.2
  rw [if_pos ⟨hd, List.contains_iff_mem.mpr hname, hslice⟩] at hrolling
  cases hrolling

/-- The loops of a node that passes are within the bound. -/
theorem PassedAt.loops (h : PassedAt d n)
    (hloop : n.cls = .for_ ∨ n.cls = .listComp ∨ n.cls = .setComp ∨ n.cls = .dictComp ∨
      n.cls = .generatorExp) : d + loopsOf n ≤ maxNestedLoopDepth := by
  obtain ⟨functionDepth, loopCount, hnil⟩ := h
  have hloops : loopViolations d loopCount (loopsOf n) n = [] := by
    rcases hloop with h | h | h | h | h <;>
    · rw [nodeViolations, h] at hnil
      exact hnil
  by_contra hdeep
  have hreject := (List.append_eq_nil_iff.mp hloops).2
  rw [if_pos (by omega)] at hreject
  cases hreject

/-- At most all generators of a comprehension are around one of its parts. -/
theorem generatorsAround_le {cs : List Node} (hc : cs[i]? = some c) :
    generatorsAround cs i c p ≤ (cs.filter isGenerator).length := by
  unfold generatorsAround
  split
  · rename_i hgenerator
    have hi : i < cs.length := (List.getElem?_eq_some_iff.mp hc).1
    have hsplit : cs.take i ++ c :: cs.drop (i + 1) = cs := by
      rw [← (List.getElem?_eq_some_iff.mp hc).2, ← List.drop_eq_getElem_cons hi, List.take_append_drop]
    have hlength : (cs.filter isGenerator).length =
        ((cs.take i).filter isGenerator).length + (((cs.drop (i + 1)).filter isGenerator).length + 1) := by
      conv_lhs => rw [← hsplit]
      rw [List.filter_append, List.length_append, List.filter_cons_of_pos hgenerator, List.length_cons]
    split
    · split <;> omega
    · omega
  · exact Nat.le_refl _

/-- A step enters no loop, the body of a `for`, or a loop of an expression within the node's own. -/
theorem enters_cases {n c : Node} (hc : n.children[i]? = some c) :
    enters n i c p = [] ∨
      (n.cls = .for_ ∧ c.label.field = "body" ∧ enters n i c p = [.forBody]) ∨
      ∃ scope, scope ≠ .forBody ∧ enters n i c p = [scope] ∧ scope.loops ≤ loopsOf n ∧
        (n.cls = .for_ ∨ n.cls = .listComp ∨ n.cls = .setComp ∨ n.cls = .dictComp ∨
          n.cls = .generatorExp) := by
  have hcomprehension : loopsOf n = (n.field "generators").length →
      (n.cls = .for_ ∨ n.cls = .listComp ∨ n.cls = .setComp ∨ n.cls = .dictComp ∨
        n.cls = .generatorExp) →
      enters n i c p = (match generatorsAround n.children i c p with
        | 0 => []
        | k + 1 => [.comprehension (k + 1)]) →
      enters n i c p = [] ∨
      (n.cls = .for_ ∧ c.label.field = "body" ∧ enters n i c p = [.forBody]) ∨
      ∃ scope, scope ≠ .forBody ∧ enters n i c p = [scope] ∧ scope.loops ≤ loopsOf n ∧
        (n.cls = .for_ ∨ n.cls = .listComp ∨ n.cls = .setComp ∨ n.cls = .dictComp ∨
          n.cls = .generatorExp) := by
    intro hloops hcls henters
    have hle := generatorsAround_le (p := p) hc
    cases hk : generatorsAround n.children i c p with
    | zero =>
      rw [hk] at henters
      exact .inl henters
    | succ k =>
      rw [hk] at henters hle
      refine .inr (.inr ⟨.comprehension (k + 1), nofun, henters, ?_, hcls⟩)
      rw [hloops]
      exact hle
  cases hcls : n.cls with
  | for_ =>
    by_cases hbody : c.label.field = "body"
    · exact .inr (.inl ⟨rfl, hbody, by simp [enters, hcls, hbody]⟩)
    · by_cases htarget : c.label.field = "target"
      · refine .inr (.inr ⟨.forTarget, nofun, by simp [enters, hcls, htarget], ?_, .inl rfl⟩)
        simp [loopsOf, hcls, LoopScope.loops]
      · exact .inl (by simp [enters, hcls, hbody, htarget])
  | listComp | setComp | dictComp | generatorExp =>
    rw [hcls] at hcomprehension
    exact hcomprehension (by simp [loopsOf, hcls]) (by simp) (by simp [enters, hcls])
  | _ => exact .inl (by simp [enters, hcls])

/-- Without a loop in a loop of an expression, every place below nodes that pass is in few loops. -/
theorem loopsAround_le {t : Node} (hpassed : ∀ p (n : Node), t.at? p = some n →
      PassedAt (d + forDepth p t) n) (hd : d ≤ maxNestedLoopDepth) (hn : t.at? p = some n)
    (hexpression : loopInExpression (loopScopes p t) = false) :
    d + loopsAround p t ≤ maxNestedLoopDepth := by
  induction p generalizing d t with
  | nil => exact hd
  | cons i p ih =>
    obtain ⟨c, hc, hn⟩ := Option.bind_eq_some_iff.mp hn
    have hscopes : loopScopes (i :: p) t = enters t i c p ++ loopScopes p c := by
      rw [loopScopes, hc]
    have hbelow : ∀ q (m : Node), c.at? q = some m →
        PassedAt (d + (if t.cls = .for_ ∧ c.label.field = "body" then 1 else 0) + forDepth q c) m := by
      intro q m hm
      have h := hpassed (i :: q) m (Option.bind_eq_some_iff.mpr ⟨c, hc, hm⟩)
      rw [forDepth_cons hc, ← Nat.add_assoc] at h
      exact h
    have hhere : PassedAt d t := hpassed [] t rfl
    rcases enters_cases (p := p) hc with hnone | ⟨hfor, hbody, hone⟩ | ⟨scope, hscope, hone, hloops, hcls⟩
    · have hnot : ¬ (t.cls = .for_ ∧ c.label.field = "body") := by
        intro h
        have hcount := enters_forBody t i c p
        rw [hnone, if_pos h] at hcount
        cases hcount
      rw [hnone, List.nil_append] at hscopes
      rw [if_neg hnot] at hbelow
      rw [hscopes] at hexpression
      rw [loopsAround, hscopes]
      exact ih hbelow hd hn hexpression
    · rw [hone, List.singleton_append] at hscopes
      rw [if_pos ⟨hfor, hbody⟩] at hbelow
      rw [hscopes, loopInExpression, Bool.or_eq_false_iff] at hexpression
      have hbound := hhere.loops (.inl hfor)
      rw [loopsOf, hfor] at hbound
      have h := ih hbelow hbound hn hexpression.2
      rw [loopsAround, hscopes, List.map_cons, List.sum_cons, ← Nat.add_assoc]
      exact h
    · rw [hone, List.singleton_append] at hscopes
      rw [hscopes, loopInExpression, Bool.or_eq_false_iff] at hexpression
      have hlast : loopScopes p c = [] := by
        simpa [hscope] using hexpression.1
      rw [loopsAround, hscopes, hlast]
      exact Nat.le_trans (Nat.add_le_add_left (by simpa using hloops) d) (hhere.loops hcls)

end

theorem validateBacktestCode_passedAt (h : (validateBacktestCode parse source requiredFunctions).ok)
    (hparse : parse source = .ok tree) :
    ∀ p (n : Node), tree.at? p = some n → PassedAt (forDepth p tree) n := by
  rw [validateBacktestCode, hparse] at h
  have hempty := List.isEmpty_iff.mp h
  simp only [List.append_eq_nil_iff] at hempty
  intro p n hn
  have hpassed := (visit_passedAt 0 0 ⟨[], 0⟩ tree hempty.1.2).2 p n hn
  rwa [Nat.zero_add] at hpassed

/-- Accepted code is loop-bounded exactly when the visitor's counter leaves nothing out. -/
theorem accepted_loopBounded_iff (h : (validateBacktestCode parse source requiredFunctions).ok)
    (hparse : parse source = .ok tree) : LoopBounded tree ↔ NoUncountedLoop tree := by
  have hpassed := validateBacktestCode_passedAt h hparse
  constructor
  · intro hbounded
    exact ⟨fun p n hn _ => (hbounded p n hn).1, fun p n hn hcall _ => (hbounded p n hn).2.2 hcall⟩
  · intro hcounted p n hn
    have hdepth : loopInExpression (loopScopes p tree) = false →
        loopsAround p tree ≤ maxNestedLoopDepth := by
      intro hexpression
      have hle := loopsAround_le (d := 0) (fun q m hm => by rw [Nat.zero_add]; exact hpassed q m hm)
        (Nat.zero_le _) hn hexpression
      rwa [Nat.zero_add] at hle
    refine ⟨?_, (hpassed p n hn).not_while, fun hcall => ?_⟩
    · cases hexpression : loopInExpression (loopScopes p tree) with
      | false => exact hdepth hexpression
      | true => exact hcounted.nested p n hn hexpression
    · exact hcounted.rolling p n hn hcall ((hpassed p n hn).rolling hcall)

def listComp (field : String) (elt : Node) (target iter : String) : Node :=
  inner field .listComp
    [elt, inner "generators" (.other "comprehension")
      [nameNode "target" target "Store", nameNode "iter" iter "Load"]]

/-- A program that returns an expression of its argument. -/
def returning (value : Node) : Node :=
  inner "" (.other "Module")
    [inner "body" (.functionDef "build_signals")
      [inner "args" (.other "arguments") [leaf "args" (.other "arg")],
        inner "body" (.other "Return") [value]]]

def flatSource : String := "def build_signals(rows):\n    return [a for a in rows]\n"

def flatTree : Node := returning (listComp "value" (nameNode "elt" "a" "Load") "a" "rows")

def nestedSource : String :=
  "def build_signals(rows):\n    return [[[c for c in b] for b in a] for a in rows]\n"

/-- Three comprehensions in one another. -/
def nestedTree : Node :=
  returning (listComp "value"
    (listComp "elt" (listComp "elt" (nameNode "elt" "c" "Load") "c" "b") "b" "a") "a" "rows")

def parseLoops (source : String) : Except SyntaxError Node :=
  if source = flatSource then .ok flatTree
  else if source = nestedSource then .ok nestedTree
  else .error ⟨some 1, some 1, "invalid syntax"⟩

theorem accepted_loopBounded_iff_flat :
    (validateBacktestCode parseLoops flatSource ["build_signals"]).ok ∧
      (LoopBounded flatTree ↔ NoUncountedLoop flatTree) :=
  ⟨by decide +kernel, accepted_loopBounded_iff (by decide +kernel :
    (validateBacktestCode parseLoops flatSource ["build_signals"]).ok) (if_pos rfl)⟩

/-- The innermost element of three accepted comprehensions is evaluated in three loops. -/
theorem accepted_not_loopBounded :
    ¬ ∀ (parse : String → Except SyntaxError Node) (source : String) (tree : Node),
      (validateBacktestCode parse source ["build_signals"]).ok → parse source = .ok tree →
        LoopBounded tree := by
  intro h
  have haccepted : (validateBacktestCode parseLoops nestedSource ["build_signals"]).ok := by
    decide +kernel
  have hbounded := h parseLoops nestedSource nestedTree haccepted
    ((if_neg (by decide)).trans (if_pos rfl))
  have hdeep : loopsAround [0, 1, 0, 0, 0, 0] nestedTree = 3 := by decide +kernel
  have hle := (hbounded [0, 1, 0, 0, 0, 0] _ rfl).1
  rw [hdeep] at hle
  exact absurd hle (by decide)

end QuantAgent.Sandbox
