import QuantAgent.Sandbox.Validator

namespace QuantAgent.Sandbox
set_option autoImplicit true

def runtimeAllowedImports : List String := ["datetime", "math", "statistics"]

def networkModuleRoots : List String :=
  ["socket", "requests", "urllib", "urllib3", "httpx", "aiohttp", "ftplib"]

def fileIoModuleRoots : List String := ["pathlib", "pickle", "shelve", "tempfile", "shutil"]

def suspiciousNetworkCalls : List String :=
  ["socket", "socket.socket", "socket.create_connection", "urllib.request.urlopen",
    "urllib.request.Request", "requests.get", "requests.post", "requests.put", "requests.delete",
    "requests.request", "httpx.get", "httpx.post", "httpx.put", "httpx.delete", "httpx.request",
    "httpx.Client", "httpx.AsyncClient", "aiohttp.ClientSession", "ftplib.FTP"]

def suspiciousFileCalls : List String :=
  ["open", "pathlib.Path.open", "pathlib.Path.write_text", "pathlib.Path.write_bytes",
    "pathlib.Path.touch", "pathlib.Path.mkdir", "pathlib.Path.unlink", "pathlib.Path.rename",
    "pathlib.Path.replace", "pickle.dump", "shelve.open", "tempfile.NamedTemporaryFile",
    "tempfile.mkstemp", "tempfile.mkdtemp", "shutil.copy", "shutil.copy2", "shutil.copyfile",
    "shutil.move", "shutil.rmtree", "pandas.read_csv", "pandas.read_excel", "pandas.read_json",
    "pandas.read_parquet", "pandas.read_pickle", "pandas.DataFrame.to_csv",
    "pandas.DataFrame.to_excel", "pandas.DataFrame.to_json", "pandas.DataFrame.to_parquet",
    "pandas.DataFrame.to_pickle"]

structure CodeError where
  code : String
  message : String
  line : ℕ
deriving DecidableEq

structure CodeValidationOutcome where
  isSafe : Bool
  syntaxValid : Bool
  usesAllowedImports : Bool
  blocksNetworkAccess : Bool
  blocksFileWrite : Bool
  errorsJsonb : List CodeError
deriving DecidableEq

/-- `_runtime_import_violations` -/
def runtimeImportViolations (tree : Node) : List CodeError :=
  tree.walk.flatMap fun (node : Node) =>
    match node.cls with
    | .import_ => (node.field "names").filterMap fun (child : Node) =>
      match child.cls with
      | .alias name _ =>
        if runtimeAllowedImports.contains (rootName name) then none
        else some ⟨"runtime.import.blocked", "runtime import '" ++ name ++ "' is not allowed",
          node.label.line⟩
      | _ => none
    | .importFrom module level =>
      if level ≠ 0 ∨ ¬ runtimeAllowedImports.contains (rootName (module.getD "")) then
        [⟨"runtime.import_from.blocked",
          "runtime import '" ++ module.getD "" ++ "' is not allowed", node.label.line⟩]
      else []
    | _ => []

/-- `_suspicious_usage` -/
def suspiciousUsage (tree : Node) (suspiciousCalls suspiciousRoots : List String) : List CodeError :=
  tree.walk.filterMap fun (node : Node) =>
    match node.cls with
    | .call =>
      let callName := ((node.get? "func").map callPath).getD "<dynamic>"
      if suspiciousCalls.contains callName ∨ suspiciousRoots.contains (rootName callName) then
        some ⟨"sandbox.call.blocked",
          "call '" ++ callName ++ "' is not allowed in generated backtest code", node.label.line⟩
      else none
    | .attribute _ =>
      let root := attributeRoot node
      if suspiciousRoots.contains root then
        some ⟨"sandbox.attribute.blocked",
          "attribute access on '" ++ root ++ "' is not allowed in generated backtest code",
          node.label.line⟩
      else none
    | _ => none

/-- `ASTCodeValidator.validate` -/
def ASTCodeValidator.validate (parse : String → Except SyntaxError Node) (generatedCode : String) :
    CodeValidationOutcome :=
  let result := validateBacktestCode parse generatedCode ["build_signals"]
  let violations (find : Node → List CodeError) : List CodeError :=
    match parse generatedCode with
    | .ok tree => find tree
    | .error _ => []
  let importViolations := violations runtimeImportViolations
  let networkViolations := violations fun tree =>
    suspiciousUsage tree suspiciousNetworkCalls networkModuleRoots
  let fileViolations := violations fun tree =>
    suspiciousUsage tree suspiciousFileCalls fileIoModuleRoots
  let errors := result.violations.map (fun v => CodeError.mk v.code v.message v.line) ++
    importViolations ++ networkViolations ++ fileViolations
  let syntaxValid := !errors.any fun error => error.code == "syntax.error"
  let usesAllowedImports := importViolations.isEmpty &&
    !errors.any fun error => error.code.startsWith "import"
  ⟨result.ok && syntaxValid && usesAllowedImports && networkViolations.isEmpty && fileViolations.isEmpty,
    syntaxValid, usesAllowedImports, networkViolations.isEmpty, fileViolations.isEmpty, errors⟩

end QuantAgent.Sandbox
