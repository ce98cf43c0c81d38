import QuantAgent.Sandbox.CodeValidator

namespace QuantAgent.Sandbox
set_option autoImplicit true

/-- The objects a program can get hold of: modules, builtins and what else a module holds. -/
inductive PyObject where
  | module (name : String)
  | builtin (name : String)
  | member (module name : String)
deriving DecidableEq

def PyObject.Blocked : PyObject → Prop
  | .module name => name ∈ blockedModules
  | .builtin name => name ∈ blockedCalls
  | .member _ _ => False

instance : (o : PyObject) → Decidable o.Blocked
  | .module name => inferInstanceAs (Decidable (name ∈ blockedModules))
  | .builtin name => inferInstanceAs (Decidable (name ∈ blockedCalls))
  | .member _ _ => inferInstanceAs (Decidable False)

/-- The standard library: what an attribute of an object is, and the names `import *` binds. -/
structure PyLibrary where
  attr? : PyObject → String → Option PyObject
  star : String → List String

/-- The modules that expose the `sys` they import. -/
def sysModules : List String := ["datetime", "statistics"]

namespace PyLibrary

/-- An attribute that a program may name: any one of an allowed module, else a public one. -/
def MayName (o : PyObject) (attr : String) : Prop :=
  ¬ attr.startsWith "_" ∨ ∃ m ∈ allowedModules, o = .module m

/-- What a program reaches from the allowed modules and builtins without passing a blocked object. -/
inductive Reachable (lib : PyLibrary) : PyObject → Prop
  | module (h : m ∈ allowedModules) : Reachable lib (.module m)
  | builtin (h : x ∉ blockedCalls) : Reachable lib (.builtin x)
  | dotted (h : Reachable lib o) (hattr : MayName o attr) (ho : lib.attr? o attr = some o')
      (hblocked : ¬ o'.Blocked) : Reachable lib o'

/-- `datetime` and `statistics` expose the module `sys`, nothing else that a program reaches exposes
anything blocked, and `import *` does not bind `sys`. -/
structure ExposesSys (lib : PyLibrary) : Prop where
  sys : ∀ m ∈ sysModules, lib.attr? (.module m) "sys" = some (.module "sys")
  only : ∀ o attr o', lib.Reachable o → MayName o attr → lib.attr? o attr = some o' → o'.Blocked →
    attr = "sys" ∧ ∃ m ∈ sysModules, o = .module m
  star : ∀ m ∈ allowedModules, "sys" ∉ lib.star m

end PyLibrary

/-- What a run makes of the places in a program: which names are found among the builtins, and which
place may have the value of which other one, by any binding, argument, container or return. -/
structure PyRun where
  builtin : List ℕ → Prop
  flows : List ℕ → List ℕ → Prop

section
variable (lib : PyLibrary) (run : PyRun) (tree : Node)

/-- The objects that the place `p` may denote; an `alias` of an import is such a place. -/
inductive Denotes : List ℕ → PyObject → Prop
  | builtin {n : Node} (hn : tree.at? p = some n) (hname : n.cls = .name x) (hp : run.builtin p) :
      Denotes p (.builtin x)
  | imported {n c : Node} (hn : tree.at? p = some n) (himport : n.cls = .import_)
      (hc : n.children[i]? = some c) (hfield : c.label.field = "names")
      (halias : c.cls = .alias m asname) :
      Denotes (p ++ [i]) (.module (if asname = none then rootName m else m))
  | importedFrom {n c : Node} (hn : tree.at? p = some n) (himport : n.cls = .importFrom (some m) 0)
      (hc : n.children[i]? = some c) (halias : c.cls = .alias name asname)
      (ho : lib.attr? (.module m) name = some o) : Denotes (p ++ [i]) o
  | importedStar {n c : Node} (hn : tree.at? p = some n) (himport : n.cls = .importFrom (some m) 0)
      (hc : n.children[i]? = some c) (halias : c.cls = .alias "*" asname) (hname : name ∈ lib.star m)
      (ho : lib.attr? (.module m) name = some o) : Denotes (p ++ [i]) o
  | dotted {n c : Node} (hn : tree.at? p = some n) (hattr : n.cls = .attribute attr)
      (hc : n.children[i]? = some c) (hfield : c.label.field = "value")
      (hvalue : Denotes (p ++ [i]) o) (ho : lib.attr? o attr = some o') : Denotes p o'
  | flow (h : run.flows q p) (hq : Denotes q o) : Denotes p o

/-- Nothing in the program denotes a blocked module or builtin. -/
def NothingBlocked : Prop := ∀ p o, Denotes lib run tree p o → ¬ o.Blocked

/-- The forms that the validators do not look at are absent. -/
structure NoUncheckedForm : Prop where
  /-- A blocked builtin is named only as the function of a call. -/
  names : ∀ p (n : Node) x, tree.at? p = some n → n.cls = .name x → run.builtin p →
    x ∈ blockedCalls → ∃ q i, p = q ++ [i] ∧ ∃ call : Node, tree.at? q = some call ∧
      call.cls = .call ∧ call.get? "func" = some n
  /-- `sys` is not imported from a module that exposes it. -/
  imports : ∀ p (n c : Node) m asname, tree.at? p = some n → n.cls = .importFrom (some m) 0 →
    m ∈ sysModules → c ∈ n.children → c.cls ≠ .alias "sys" asname
  /-- No attribute `sys` is taken of a module that exposes it. -/
  attributes : ∀ p i (n c : Node) m, tree.at? p = some n → n.cls = .attribute "sys" →
    n.children[i]? = some c → c.label.field = "value" → m ∈ sysModules →
    ¬ Denotes lib run tree (p ++ [i]) (.module m)

end

/-- Some visit of the node rejects nothing. -/
def Passed (n : Node) : Prop :=
  ∃ functionDepth loopDepth loopCount, nodeViolations functionDepth loopDepth loopCount n = []

mutual

/-- A visit that rejects nothing has passed every place below. -/
theorem visit_passed (functionDepth loopDepth : ℕ) (st : VisitorState) :
    (t : Node) → (visit functionDepth loopDepth st t).violations = [] →
      st.violations = [] ∧ ∀ p (n : Node), t.at? p = some n → Passed n
  | .node l cs, h => by
    rw [visit] at h
    obtain ⟨hbefore, hbelow⟩ := visitAll_passed _ _ _ _ cs h
    obtain ⟨hst, hnode⟩ := List.append_eq_nil_iff.mp hbefore
    refine ⟨hst, fun p n hn => ?_⟩
    cases p with
    | nil =>
      cases hn
      exact ⟨_, _, _, hnode⟩
    | cons i p =>
      obtain ⟨c, hc, hn⟩ := Option.bind_eq_some_iff.mp hn
      exact hbelow i c p n hc hn

theorem visitAll_passed (inFor : Bool) (functionDepth loopDepth : ℕ) (st : VisitorState) :
    (cs : List Node) → (visitAll inFor functionDepth loopDepth st cs).violations = [] →
      st.violations = [] ∧ ∀ (i : ℕ) (c : Node) p (n : Node), cs[i]? = some c → c.at? p = some n → Passed n
  | [], h => ⟨h, fun i c p n hc => absurd hc (by simp)⟩
  | d :: cs, h => by
    rw [visitAll] at h
    obtain ⟨hbefore, hbelow⟩ := visitAll_passed inFor functionDepth loopDepth _ cs h
    obtain ⟨hst, hd⟩ := visit_passed functionDepth _ st d hbefore
    refine ⟨hst, fun i c p n hc hn => ?_⟩
    cases i with
    | zero =>
      cases hc
      exact hd p n hn
    | succ i => exact hbelow i c p n hc hn

end

theorem validateBacktestCode_passed (h : (validateBacktestCode parse source requiredFunctions).ok) :
    ∃ tree, parse source = .ok tree ∧ ∀ p (n : Node), tree.at? p = some n → Passed n := by
  rw [validateBacktestCode] at h
  cases hparse : parse source with
  | error exc =>
    rw [hparse] at h
    cases h
  | ok tree =>
    rw [hparse] at h
    have hempty := List.isEmpty_iff.mp h
    simp only [List.append_eq_nil_iff] at hempty
    exact ⟨tree, rfl, (visit_passed 0 0 ⟨[], 0⟩ tree hempty.1.2).2⟩

/-- Code that the backend finds safe has passed the shared validator. -/
theorem ASTCodeValidator.validate_ok (h : (ASTCodeValidator.validate parse source).isSafe) :
    (validateBacktestCode parse source ["build_signals"]).ok := by
  simp only [ASTCodeValidator.validate, Bool.and_eq_true] at h
  exact h.1.1.1.1

section
variable {n c : Node}

theorem not_importBlocked (h : importBlocked m = false) : m ∈ allowedModules := by
  by_contra hm
  simp [importBlocked, hm] at h

theorem Passed.import_ (h : Passed n) (hn : n.cls = .import_) (hc : c ∈ n.children)
    (hfield : c.label.field = "names") (halias : c.cls = .alias m asname) : m ∈ allowedModules := by
  obtain ⟨functionDepth, loopDepth, loopCount, hnil⟩ := h
  rw [nodeViolations, hn] at hnil
  have hnone := List.filterMap_eq_nil_iff.mp hnil c
    (List.mem_filter.mpr ⟨hc, decide_eq_true hfield⟩)
  rw [halias] at hnone
  cases hblocked : importBlocked m with
  | false => exact not_importBlocked hblocked
  | true =>
    simp only [hblocked, if_true] at hnone
    cases hnone

theorem Passed.importFrom (h : Passed n) (hn : n.cls = .importFrom (some m) level) :
    m ∈ allowedModules := by
  obtain ⟨functionDepth, loopDepth, loopCount, hnil⟩ := h
  rw [nodeViolations, hn] at hnil
  cases hblocked : importBlocked m with
  | false => exact not_importBlocked hblocked
  | true =>
    simp only [Option.getD_some, hblocked, or_true, if_true] at hnil
    cases hnil

theorem Passed.attribute (h : Passed n) (hn : n.cls = .attribute attr) : ¬ attr.startsWith "_" := by
  obtain ⟨functionDepth, loopDepth, loopCount, hnil⟩ := h
  rw [nodeViolations, hn] at hnil
  intro hprivate
  simp only [hprivate, if_true] at hnil
  cases (List.append_eq_nil_iff.mp hnil).1

theorem Passed.call (h : Passed n) (hn : n.cls = .call) (hfunc : n.get? "func" = some c)
    (hname : c.cls = .name x) : x ∉ blockedCalls := by
  obtain ⟨functionDepth, loopDepth, loopCount, hnil⟩ := h
  rw [nodeViolations, hn] at hnil
  intro hx
  have hpath : callPath c = x := by rw [callPath, hname]
  simp only [callViolations, hfunc, Option.map_some, Option.getD_some, hpath,
    List.contains_iff_mem.mpr hx, if_true, List.append_eq_nil_iff] at hnil
  cases hnil.1.1.1

end

section
variable {lib : PyLibrary} {run : PyRun} {tree : Node}

theorem rootName_of_allowed (h : m ∈ allowedModules) : rootName m = m := by
  fin_cases h <;> decide +kernel

theorem NoUncheckedForm.of_nothingBlocked (hlib : lib.ExposesSys)
    (h : NothingBlocked lib run tree) : NoUncheckedForm lib run tree := by
  have hsys : (PyObject.module "sys").Blocked := by decide
  refine ⟨fun p n x hn hname hp hx => ?_, fun p n c m asname hn himport hm hc halias => ?_,
    fun p i n c m hn hattr hc hfield hm hvalue => ?_⟩
  · exact absurd hx (h p _ (.builtin hn hname hp))
  · obtain ⟨i, hi⟩ := List.mem_iff_getElem?.mp hc
    exact h _ _ (.importedFrom hn himport hi halias (hlib.sys m hm)) hsys
  · exact h p _ (.dotted hn hattr hc hfield hvalue (hlib.sys m hm)) hsys

/-- In a program that has passed, whatever is denoted is reached without passing a blocked object. -/
theorem Denotes.reachable (hlib : lib.ExposesSys) (hpassed : ∀ p (n : Node), tree.at? p = some n → Passed n)
    (hforms : NoUncheckedForm lib run tree) (h : Denotes lib run tree p o) :
    lib.Reachable o ∧ ¬ o.Blocked := by
  have hallowed : ∀ m ∈ allowedModules, ¬ (PyObject.module m).Blocked := by
    intro m hm
    fin_cases hm <;> decide
  have hmodule : ∀ m ∈ allowedModules, lib.Reachable (.module m) ∧ ¬ (PyObject.module m).Blocked :=
    fun m hm => ⟨.module hm, hallowed m hm⟩
  have hmember : ∀ m ∈ allowedModules, ∀ name o, lib.attr? (.module m) name = some o →
      (m ∈ sysModules → name ≠ "sys") → lib.Reachable o ∧ ¬ o.Blocked := by
    intro m hm name o ho hname
    have hmay : PyLibrary.MayName (.module m) name := .inr ⟨m, hm, rfl⟩
    have hfree : ¬ o.Blocked := by
      intro hblocked
      obtain ⟨rfl, m', hm', heq⟩ := hlib.only _ _ _ (.module hm) hmay ho hblocked
      cases heq
      exact hname hm' rfl
    exact ⟨.dotted (.module hm) hmay ho hfree, hfree⟩
  induction h with
  | @builtin p x n hn hname hp =>
    have hx : x ∉ blockedCalls := by
      intro hx
      obtain ⟨q, i, -, call, hcall, hcls, hfunc⟩ := hforms.names _ n x hn hname hp hx
      exact (hpassed q call hcall).call hcls hfunc hname hx
    exact ⟨.builtin hx, hx⟩
  | @imported p i m asname n c hn himport hc hfield halias =>
    have hm := (hpassed _ n hn).import_ himport (List.mem_of_getElem? hc) hfield halias
    rw [rootName_of_allowed hm, ite_self]
    exact hmodule m hm
  | @importedFrom p m i name asname o n c hn himport hc halias ho =>
    refine hmember m ((hpassed _ n hn).importFrom himport) name o ho fun hm hsys => ?_
    subst hsys
    exact hforms.imports _ n c m asname hn himport hm (List.mem_of_getElem? hc) halias
  | @importedStar p m i asname name o n c hn himport hc halias hname ho =>
    have hm := (hpassed _ n hn).importFrom himport
    refine hmember m hm name o ho fun _ hsys => ?_
    subst hsys
    exact hlib.star m hm hname
  | @dotted p attr i o o' n c hn hattr hc hfield hvalue ho ih =>
    have hmay : PyLibrary.MayName o attr := .inl ((hpassed _ n hn).attribute hattr)
    have hfree : ¬ o'.Blocked := by
      intro hblocked
      obtain ⟨rfl, m, hm, rfl⟩ := hlib.only _ _ _ ih.1 hmay ho hblocked
      exact hforms.attributes _ _ n c m hn hattr hc hfield hm hvalue
    exact ⟨.dotted ih.1 hmay ho hfree, hfree⟩
  | flow h hq ih => exact ih

/-- In a program that either validator accepts, nothing denotes a blocked module or builtin exactly
when the forms that neither looks at are absent. -/
theorem accepted_nothingBlocked_iff (hlib : lib.ExposesSys)
    (h : (validateBacktestCode parse source requiredFunctions).ok ∨
      (ASTCodeValidator.validate parse source).isSafe) (htree : parse source = .ok tree) :
    NothingBlocked lib run tree ↔ NoUncheckedForm lib run tree := by
  have hpassed : ∀ p (n : Node), tree.at? p = some n → Passed n := by
    have hok : ∃ required, (validateBacktestCode parse source required).ok := by
      rcases h with h | h
      · exact ⟨_, h⟩
      · exact ⟨_, ASTCodeValidator.validate_ok h⟩
    obtain ⟨required, hok⟩ := hok
    obtain ⟨tree', htree', hpassed⟩ := validateBacktestCode_passed hok
    cases htree.symm.trans htree'
    exact hpassed
  constructor
  · exact .of_nothingBlocked hlib
  · exact fun hforms p o ho => (ho.reachable hlib hpassed hforms).2

end

/-- A library with a few of the names that the allowed modules hold. -/
def documentedLibrary : PyLibrary where
  attr?
    | .module m, attr =>
      if m ∈ sysModules ∧ attr = "sys" then some (.module "sys")
      else if m ∈ allowedModules ∧ attr ∈ ["sqrt", "mean", "datetime"] then some (.member m attr)
      else none
    | _, _ => none
  star _ := ["sqrt", "mean", "datetime"]

theorem documentedLibrary_exposesSys : documentedLibrary.ExposesSys where
  sys m hm := if_pos ⟨hm, rfl⟩
  only o attr o' _ _ ho hblocked := by
    cases o with
    | module m =>
      change (if m ∈ sysModules ∧ attr = "sys" then some (PyObject.module "sys")
        else if m ∈ allowedModules ∧ attr ∈ ["sqrt", "mean", "datetime"] then some (.member m attr)
        else none) = some o' at ho
      split at ho
      · rename_i hsys
        exact ⟨hsys.2, m, hsys.1, rfl⟩
      · split at ho
        · cases ho
          exact absurd hblocked not_false
        · cases ho
    | builtin name => cases ho
    | member m name => cases ho
  star _ _ := (by decide : "sys" ∉ ["sqrt", "mean", "datetime"])

def leaf (field : String) (cls : NodeClass) : Node := .node { field := field, cls := cls } []

def inner (field : String) (cls : NodeClass) (children : List Node) : Node :=
  .node { field := field, cls := cls } children

def nameNode (field id ctx : String) : Node := inner field (.name id) [leaf "ctx" (.other ctx)]

/-- A function that keeps `eval` and returns `statistics.sys`. -/
def aliasingSource : String :=
  "import statistics\ndef build_signals(prices):\n    run = eval\n    return statistics.sys\n"

def aliasingTree : Node :=
  inner "" (.other "Module")
    [inner "body" .import_ [leaf "names" (.alias "statistics" none)],
      inner "body" (.functionDef "build_signals")
        [inner "args" (.other "arguments") [leaf "args" (.other "arg")],
          inner "body" (.other "Assign") [nameNode "targets" "run" "Store", nameNode "value" "eval" "Load"],
          inner "body" (.other "Return")
            [inner "value" (.attribute "sys")
              [nameNode "value" "statistics" "Load", leaf "ctx" (.other "Load")]]]]

/-- The run finds `eval` among the builtins, and `statistics` where the import has bound it. -/
def aliasingRun : PyRun where
  builtin p := p = [1, 1, 1]
  flows q p := q = [0, 0] ∧ p = [1, 2, 0, 0]

def parseAliasing (source : String) : Except SyntaxError Node :=
  if source = aliasingSource then .ok aliasingTree else .error ⟨some 1, some 1, "invalid syntax"⟩

theorem aliasing_accepted : (validateBacktestCode parseAliasing aliasingSource ["build_signals"]).ok ∧
    (ASTCodeValidator.validate parseAliasing aliasingSource).isSafe := by
  decide +kernel

theorem aliasing_eval :
    Denotes documentedLibrary aliasingRun aliasingTree [1, 1, 1] (.builtin "eval") :=
  .builtin rfl rfl rfl

theorem accepted_not_nothingBlocked :
    ¬ ∀ (parse : String → Except SyntaxError Node) (source : String) (tree : Node) (run : PyRun),
      (validateBacktestCode parse source ["build_signals"]).ok →
        (ASTCodeValidator.validate parse source).isSafe → parse source = .ok tree →
        NothingBlocked documentedLibrary run tree := by
  intro h
  have hnothing := h parseAliasing aliasingSource aliasingTree aliasingRun aliasing_accepted.1
    aliasing_accepted.2 (if_pos rfl)
  have hsys : Denotes documentedLibrary aliasingRun aliasingTree [1, 2, 0] (.module "sys") :=
    .dotted (i := 0) rfl rfl rfl rfl (.flow ⟨rfl, rfl⟩ (.imported (p := [0]) (i := 0) rfl rfl rfl rfl rfl))
      (by decide +kernel)
  exact hnothing _ _ hsys (by decide)

theorem accepted_nothingBlocked_iff_aliasing :
    ¬ NoUncheckedForm documentedLibrary aliasingRun aliasingTree := by
  have hiff : NothingBlocked documentedLibrary aliasingRun aliasingTree ↔
      NoUncheckedForm documentedLibrary aliasingRun aliasingTree :=
    accepted_nothingBlocked_iff documentedLibrary_exposesSys (.inl aliasing_accepted.1)
      (if_pos rfl : parseAliasing aliasingSource = .ok aliasingTree)
  exact fun hforms => hiff.mpr hforms _ _ aliasing_eval (by decide)

end QuantAgent.Sandbox
