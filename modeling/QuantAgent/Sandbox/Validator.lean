import QuantAgent.Lib.RoseTree

namespace QuantAgent.Sandbox
set_option autoImplicit true

/-- The class of a syntax node, with what it holds besides its children. -/
inductive NodeClass where
  | name (id : String)
  | attribute (attr : String)
  | call
  | intConstant (value : ℤ)
  | subscript
  | slice
  | import_
  | importFrom (module : Option String) (level : ℕ)
  | alias (name : String) (asname : Option String)
  | functionDef (name : String)
  | asyncFunctionDef (name : String)
  | classDef (name : String)
  | with_
  | while_
  | for_
  | listComp
  | setComp
  | dictComp
  | generatorExp
  | other (cls : String)
deriving DecidableEq

/-- A node's place: the field of its parent that holds it, and its position in the text. -/
structure NodeLabel where
  field : String
  cls : NodeClass
  line : ℕ := 0
  column : ℕ := 0
deriving DecidableEq

abbrev Node := Tree NodeLabel

def Node.cls (n : Node) : NodeClass := n.label.cls

/-- The children that a field holds. -/
def Node.field (n : Node) (field : String) : List Node :=
  n.children.filter fun c => c.label.field = field

/-- The child in a field that holds one node. -/
def Node.get? (n : Node) (field : String) : Option Node := n.child? fun l => decide (l.field = field)

def allowedModules : List String := ["datetime", "math", "statistics"]

def blockedModules : List String := ["subprocess", "os", "sys", "importlib"]

def blockedCalls : List String := ["eval", "exec", "__import__", "open", "getattr", "setattr"]

def allowedEntrypoints : List String := ["build_signals"]

def maxSourceChars : ℕ := 20000

def maxAstNodes : ℕ := 1500

def maxAstDepth : ℕ := 40

def maxLoopNodes : ℕ := 8

def maxNestedLoopDepth : ℕ := 2

def maxLiteralRange : ℕ := 10000

def rollingAggregators : List String := ["sum", "max", "min"]

structure ASTViolation where
  line : ℕ
  column : ℕ
  code : String
  message : String
deriving DecidableEq

structure ASTValidationResult where
  ok : Bool
  violations : List ASTViolation
deriving DecidableEq

/-- `name.split(".", 1)[0]` -/
def rootName (name : String) : String := String.ofList (name.toList.takeWhile (· ≠ '.'))

mutual

/-- The names of a chain of attributes, the root first if it is a name. -/
def pathParts : Node → List String
  | .node l cs =>
    match l.cls with
    | .name id => [id]
    | .attribute attr => valueParts cs ++ [attr]
    | _ => []

/-- The same for the node in the field `value`. -/
def valueParts : List Node → List String
  | [] => []
  | c :: cs => if c.label.field = "value" then pathParts c else valueParts cs

end

def callPath (node : Node) : String :=
  match node.cls with
  | .name id => id
  | .attribute _ => ".".intercalate (pathParts node)
  | _ => "<dynamic>"

mutual

def attributeRoot : Node → String
  | .node l cs =>
    match l.cls with
    | .name id => id
    | .attribute _ => valueRoot cs
    | _ => "<dynamic>"

def valueRoot : List Node → String
  | [] => "<dynamic>"
  | c :: cs => if c.label.field = "value" then attributeRoot c else valueRoot cs

end

/-- `_contains_slice` -/
def containsSlice (node : Node) : Bool :=
  node.walk.any fun (item : Node) => item.cls == .subscript &&
    (item.get? "slice").any fun (s : Node) => s.cls == .slice

/-- What `self.reject(node, code, message)` appends. -/
def reject (node : Node) (code message : String) : ASTViolation :=
  ⟨node.label.line, node.label.column, code, message⟩

/-- The module that an `Import` may not name. -/
def importBlocked (moduleName : String) : Bool :=
  blockedModules.contains (rootName moduleName) || !allowedModules.contains moduleName

def callViolations (loopDepth : ℕ) (node : Node) : List ASTViolation :=
  let callName := ((node.get? "func").map callPath).getD "<dynamic>"
  let args := node.field "args"
  let literalBounds := args.filterMap fun argument =>
    match argument.cls with
    | .intConstant value => some value.natAbs
    | _ => none
  (if blockedCalls.contains callName then
    [reject node "call.blocked" ("call '" ++ callName ++ "' is not allowed")] else []) ++
  (if blockedModules.contains (rootName callName) then
    [reject node "call.module_blocked" ("call '" ++ callName ++ "' is not allowed")] else []) ++
  (if loopDepth ≠ 0 ∧ rollingAggregators.contains callName ∧ args.any containsSlice then
    [reject node "performance.rolling_slice"
      ("call '" ++ callName ++ "' over a slice inside a loop is not allowed")] else []) ++
  (if callName = "range" ∧ literalBounds.any fun value => decide (maxLiteralRange < value) then
    [reject node "performance.range_limit" ("literal range exceeds " ++ toString maxLiteralRange)]
    else [])

/-- The loops a node adds to the count. -/
def loopsOf (node : Node) : ℕ :=
  match node.cls with
  | .for_ => 1
  | .listComp | .setComp | .dictComp | .generatorExp => (node.field "generators").length
  | _ => 0

/-- The checks of `visit_For` and `_visit_comprehension`, once the loops are counted. -/
def loopViolations (loopDepth loopCount loops : ℕ) (node : Node) : List ASTViolation :=
  (if maxLoopNodes < loopCount then
    [reject node "performance.loop_count" ("loop count exceeds " ++ toString maxLoopNodes)] else []) ++
  (if maxNestedLoopDepth < loopDepth + loops then
    [reject node "performance.nested_loop"
      ("nested loop depth exceeds " ++ toString maxNestedLoopDepth)] else [])

/-- What the visitor's method for a node rejects, before it visits the children. -/
def nodeViolations (functionDepth loopDepth loopCount : ℕ) (node : Node) : List ASTViolation :=
  match node.cls with
  | .import_ => (node.field "names").filterMap fun child =>
    match child.cls with
    | .alias moduleName _ =>
      if importBlocked moduleName then
        some (reject node "import.blocked" ("import '" ++ moduleName ++ "' is not allowed"))
      else none
    | _ => none
  | .importFrom module level =>
    let moduleName := module.getD ""
    if level ≠ 0 ∨ importBlocked moduleName then
      [reject node "import_from.blocked" ("from import '" ++ moduleName ++ "' is not allowed")]
    else []
  | .functionDef name =>
    if functionDepth = 0 ∧ ¬ allowedEntrypoints.contains name then
      [reject node "function.name"
        ("top-level function '" ++ name ++ "' is not an allowed entrypoint")]
    else []
  | .asyncFunctionDef _ => [reject node "async.blocked" "async functions are not allowed"]
  | .classDef _ => [reject node "class.blocked" "classes are not allowed"]
  | .with_ => [reject node "with.blocked" "with statements are not allowed"]
  | .call => callViolations loopDepth node
  | .attribute attr =>
    let root := attributeRoot node
    (if attr.startsWith "_" then
      [reject node "attribute.private" ("private attribute '" ++ attr ++ "' is not allowed")]
      else []) ++
    (if blockedModules.contains root then
      [reject node "attribute.blocked" ("attribute access on '" ++ root ++ "' is blocked")] else [])
  | .while_ => [reject node "performance.while_loop" "while loops are not allowed"]
  | .for_ | .listComp | .setComp | .dictComp | .generatorExp =>
    loopViolations loopDepth loopCount (loopsOf node) node
  | _ => []

structure VisitorState where
  violations : List ASTViolation
  loopCount : ℕ

mutual

/-- `BacktestASTVisitor.visit`: only the body of a `for` is one loop deeper. -/
def visit (functionDepth loopDepth : ℕ) (st : VisitorState) : Node → VisitorState
  | .node l cs =>
    let loopCount := st.loopCount + loopsOf (.node l cs)
    let violations := nodeViolations functionDepth loopDepth loopCount (.node l cs)
    let functionDepth := match l.cls with
      | .functionDef _ => functionDepth + 1
      | _ => functionDepth
    visitAll (l.cls == .for_) functionDepth loopDepth ⟨st.violations ++ violations, loopCount⟩ cs

def visitAll (inFor : Bool) (functionDepth loopDepth : ℕ) (st : VisitorState) :
    List Node → VisitorState
  | [] => st
  | c :: cs =>
    let depth := if inFor ∧ c.label.field = "body" then loopDepth + 1 else loopDepth
    visitAll inFor functionDepth loopDepth (visit functionDepth depth st c) cs

end

structure SyntaxError where
  lineno : Option ℕ
  offset : Option ℕ
  msg : String

def validateBacktestCode (parse : String → Except SyntaxError Node) (source : String)
    (requiredFunctions : List String) : ASTValidationResult :=
  let sizeViolations :=
    if maxSourceChars < source.length then
      [⟨0, 0, "performance.source_size",
        "source exceeds " ++ toString maxSourceChars ++ " characters"⟩]
    else []
  match parse source with
  | .error exc => ⟨false, [⟨exc.lineno.getD 0, exc.offset.getD 0, "syntax.error", exc.msg⟩]⟩
  | .ok tree =>
    let functionNames := (tree.field "body").filterMap fun node =>
      match node.cls with
      | .functionDef name => some name
      | _ => none
    let violations := sizeViolations ++
      (if maxAstNodes < tree.walk.length then
        [⟨0, 0, "performance.ast_nodes", "AST node count exceeds " ++ toString maxAstNodes⟩]
        else []) ++
      (if maxAstDepth < tree.depth then
        [⟨0, 0, "performance.ast_depth", "AST depth exceeds " ++ toString maxAstDepth⟩] else []) ++
      (visit 0 0 ⟨[], 0⟩ tree).violations ++
      requiredFunctions.filterMap fun functionName =>
        if functionNames.contains functionName then none
        else some ⟨0, 0, "function.missing",
          "required function '" ++ functionName ++ "' is missing"⟩
    ⟨violations.isEmpty, violations⟩

end QuantAgent.Sandbox
