import ScriptBridge.Script.Interpreter

/-!
# Other ways into expressions and calls

The evaluator enters every expression and every body of a lambda through a counter. Here it is told
how to enter them, so that it can be asked what it would do if a limit were kept in another way, or
if it were watched. With the usual ways it is the evaluator.
-/

namespace ScriptBridge.Script

open Syntax (Expr Statement Target ImportNames)

variable {σ : Type}

/-- How expressions and bodies of lambdas are entered. -/
structure Entries (σ : Type) where
  expression : InterpreterId → ScriptM σ Value → ScriptM σ Value
  body : InterpreterId → ScriptM σ Value → ScriptM σ Value

/-- Both are counted. -/
def Entries.usual : Entries σ := ⟨nested, inCall⟩

/-- Calls a value. -/
def callBy (g : Entries σ) (e : Engine σ) (ts : InterpreterId) (callee : Value)
    (args : List Value) : ScriptM σ Value :=
  match callee with
  | .lambda params body globals =>
    if params.length = args.length then
      g.body ts (e.body ts ⟨(params.zip args).reverse, globals⟩ body)
    else raise ts (.lambdaArity params.length args.length)
  | other => call e ts other args

mutual

/-- Evaluates an expression. -/
def evalBy (g : Entries σ) (e : Engine σ) (ts : InterpreterId) (scope : Scope) :
    Expr → ScriptM σ Value
  | .literal value => g.expression ts (pure (literalValue value))
  | .name word => g.expression ts (scope.lookup ts word)
  | .tuple items => g.expression ts do return .tuple (← evalAllBy g e ts scope items)
  | .attr object member => g.expression ts do
    getAttr e ts (← evalBy g e ts scope object) member
  | .call callee args => g.expression ts do
    let callee ← evalBy g e ts scope callee
    callBy g e ts callee (← evalAllBy g e ts scope args)
  | .index object key => g.expression ts do
    let object ← evalBy g e ts scope object
    getItem e ts object (← evalBy g e ts scope key)
  | .unary op operand => g.expression ts do
    applyUnary e ts op (← evalBy g e ts scope operand)
  | .binary op left right => g.expression ts do
    let left ← evalBy g e ts scope left
    applyBinary e ts op left (← evalBy g e ts scope right)
  | .logical op left right => g.expression ts do
    let left ← evalBy g e ts scope left
    if needsRight op left then evalBy g e ts scope right else pure left
  | .lambda params body => g.expression ts (pure (.lambda params body scope.globals))

/-- Evaluates expressions in order. -/
def evalAllBy (g : Entries σ) (e : Engine σ) (ts : InterpreterId) (scope : Scope) :
    List Expr → ScriptM σ (List Value)
  | [] => pure []
  | item :: rest => do
    let value ← evalBy g e ts scope item
    return value :: (← evalAllBy g e ts scope rest)

end

/-- Calls the import entry of the interpreter. -/
def importModuleBy (g : Entries σ) (e : Engine σ) (ts : InterpreterId) (globals : ModuleRef)
    (path : String) (fromList : Value) : ScriptM σ Value := do
  match ← lookup? (← getInterpreter ts).builtins "__import__" with
  | some entry => callBy g e ts entry [.text path, .module globals, .none, fromList]
  | none => raise ts .noImportEntry

def fromImportBy (g : Entries σ) (e : Engine σ) (ts : InterpreterId) (globals : ModuleRef)
    (path : String) (names : ImportNames) : ScriptM σ Unit := do
  let module ← importModuleBy g e ts globals path (fromList names)
  match names with
  | .all => bindAll globals (← starEntries e ts module)
  | .listed names => bindImported e ts globals module names

/-- Puts a value where an assignment says. -/
def assignBy (g : Entries σ) (e : Engine σ) (ts : InterpreterId) (globals : ModuleRef)
    (target : Target) (value : Value) : ScriptM σ Unit :=
  match target with
  | .name word => bindName globals word value
  | .attr object member => do setAttr e ts (← evalBy g e ts ⟨[], globals⟩ object) member value
  | .index object key => do
    let object ← evalBy g e ts ⟨[], globals⟩ object
    setItem e ts object (← evalBy g e ts ⟨[], globals⟩ key) value

/-- Shows the value of a statement. -/
def echo (e : Engine σ) (ts : InterpreterId) (mode : Mode) (value : Value) : ScriptM σ Unit := do
  if mode = .single && !value.isNone then printLine (← repr e ts value)

/-- Executes a statement. -/
def executeBy (g : Entries σ) (e : Engine σ) (ts : InterpreterId) (globals : ModuleRef)
    (mode : Mode) : Statement → ScriptM σ Unit
  | .expr expr => do echo e ts mode (← evalBy g e ts ⟨[], globals⟩ expr)
  | .assign target value => do
    let value ← evalBy g e ts ⟨[], globals⟩ value
    assignBy g e ts globals target value
  | .imports path newName => do
    let module ← importModuleBy g e ts globals path .none
    bindName globals (newName.getD (ErrorType.lastSegment path)) module
  | .fromImport path names => fromImportBy g e ts globals path names
  | .raise none => raise ts .nothingToReraise
  | .raise (some value) => do raiseValue ts (← evalBy g e ts ⟨[], globals⟩ value)
  | .pass => pure ()

/-- Executes statements until one fails. -/
def executeAllBy (g : Entries σ) (e : Engine σ) (ts : InterpreterId) (globals : ModuleRef)
    (mode : Mode) (file : String) : Syntax.Program → ScriptM σ Unit
  | [] => pure ()
  | (line, statement) :: rest => do
    let outcome ← attempt (executeBy g e ts globals mode statement)
    e.settle
    match outcome with
    | .ok () => executeAllBy g e ts globals mode file rest
    | .error raised =>
      pushTrace ts file line
      throw raised

/-- Runs compiled source in a namespace. -/
def Code.runBy (code : Code) (g : Entries σ) (e : Engine σ) (ts : InterpreterId)
    (globals : ModuleRef) : ScriptM σ Value :=
  match code with
  | .expression value => evalBy g e ts ⟨[], globals⟩ value
  | .statements mode file program => do
    executeAllBy g e ts globals mode file program
    return .none

/-- Compiles and runs a source text. -/
def execSourceBy (g : Entries σ) (e : Engine σ) (ts : InterpreterId) (source : String)
    (mode : Mode) (file : String) (globals : ModuleRef) : ScriptM σ Value := do
  (← compile ts source mode file).runBy g e ts globals

/-- The value of an expression comes out of the way in which it was entered. -/
theorem evalBy_entered {g : Entries σ} {e : Engine σ} {ts : InterpreterId} {scope : Scope}
    {expr : Expr} {w w' : World σ} {v : Value} (h : evalBy g e ts scope expr w = .ok v w') :
    ∃ step, g.expression ts step w = .ok v w' := by
  cases expr <;> exact ⟨_, h⟩

/-! ### The usual ways -/

variable {e : Engine σ} {ts : InterpreterId} {globals : ModuleRef}

@[simp] theorem callBy_usual (callee : Value) (args : List Value) :
    callBy .usual e ts callee args = call e ts callee args := by
  cases callee <;> rfl

mutual

@[simp] theorem evalBy_usual (scope : Scope) :
    ∀ expr : Expr, evalBy .usual e ts scope expr = eval e ts scope expr
  | .literal _ | .name _ | .lambda _ _ => rfl
  | .tuple items => by
    simp only [evalBy, eval, evalAllBy_usual scope items]
    rfl
  | .attr object member => by
    simp only [evalBy, eval, evalBy_usual scope object]
    rfl
  | .call callee args => by
    simp only [evalBy, eval, evalBy_usual scope callee, evalAllBy_usual scope args, callBy_usual]
    rfl
  | .index object key => by
    simp only [evalBy, eval, evalBy_usual scope object, evalBy_usual scope key]
    rfl
  | .unary op operand => by
    simp only [evalBy, eval, evalBy_usual scope operand]
    rfl
  | .binary op left right => by
    simp only [evalBy, eval, evalBy_usual scope left, evalBy_usual scope right]
    rfl
  | .logical op left right => by
    simp only [evalBy, eval, evalBy_usual scope left, evalBy_usual scope right]
    rfl

@[simp] theorem evalAllBy_usual (scope : Scope) :
    ∀ items : List Expr, evalAllBy .usual e ts scope items = evalAll e ts scope items
  | [] => rfl
  | item :: rest => by
    simp only [evalAllBy, evalAll, evalBy_usual scope item, evalAllBy_usual scope rest]

end

@[simp] theorem importModuleBy_usual (path : String) (list : Value) :
    importModuleBy .usual e ts globals path list = importModule e ts globals path list := by
  unfold importModuleBy importModule
  simp only [callBy_usual] <;> rfl

@[simp] theorem executeBy_usual (mode : Mode) (statement : Statement) :
    executeBy .usual e ts globals mode statement = execute e ts globals mode statement := by
  cases statement with
  | expr value => simp only [executeBy, execute, evalBy_usual, echo]
  | assign target value =>
    cases target <;> simp only [executeBy, execute, assignBy, assign, evalBy_usual]
  | imports path newName => simp only [executeBy, execute, importModuleBy_usual]
  | fromImport path names =>
    cases names <;>
      simp only [executeBy, execute, fromImportBy, fromImport, importModuleBy_usual]
  | raise value => cases value <;> simp only [executeBy, execute, evalBy_usual]
  | pass => rfl

@[simp] theorem executeAllBy_usual (mode : Mode) (file : String) (program : Syntax.Program) :
    executeAllBy .usual e ts globals mode file program =
      executeAll e ts globals mode file program := by
  induction program with
  | nil => rfl
  | cons first rest ih =>
    simp only [executeAllBy, executeAll, executeBy_usual, ih] <;> rfl

/-- Entered in the usual ways, a source text runs as it does. -/
theorem execSourceBy_usual (source : String) (mode : Mode) (file : String) :
    execSourceBy .usual e ts source mode file globals =
      execSource e ts source mode file globals := by
  unfold execSourceBy execSource
  congr 1
  funext code
  cases code <;> simp only [Code.runBy, Code.run, evalBy_usual, executeAllBy_usual]

end ScriptBridge.Script
