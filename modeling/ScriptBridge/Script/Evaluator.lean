import ScriptBridge.Script.Builtins
import ScriptBridge.Syntax.Reading

/-!
# Evaluation

Expressions are evaluated from left to right, each node one level of nesting deeper than the node
above it. A statement changes a namespace only after everything it needs has been computed. A
failing statement leaves its line in the trace of the error.
-/

namespace ScriptBridge.Script

open Syntax (Expr BinaryOp UnaryOp LogicalOp Statement Target ImportNames)

variable {σ : Type}

/-- How a source text is compiled. -/
inductive Mode where
  /-- Interactive statements, which echo the values of expressions. -/
  | single
  /-- One expression, whose value is wanted. -/
  | eval
  /-- A whole script. -/
  | file
deriving DecidableEq, Repr

/-! ### Expressions -/

/-- The value of a name. -/
def Scope.lookup (scope : Scope) (ts : InterpreterId) (name : String) : ScriptM σ Value := do
  match scope.locals.lookup name with
  | some value => pure value
  | none =>
    match ← lookup? scope.globals name with
    | some value => pure value
    | none =>
      match ← lookup? (← getInterpreter ts).builtins name with
      | some value => pure value
      | none => raise ts (.undefinedName name)

/-- Calls a value. -/
def call (e : Engine σ) (ts : InterpreterId) (callee : Value) (args : List Value) :
    ScriptM σ Value :=
  match callee with
  | .native function => callNative e ts function args
  | .lambda params body globals =>
    if params.length = args.length then
      inCall ts (e.body ts ⟨(params.zip args).reverse, globals⟩ body)
    else raise ts (.lambdaArity params.length args.length)
  | .errorType type =>
    match args with
    | [] => pure (.errorInstance type none)
    | arg :: _ => do return .errorInstance type (some (← toText e ts arg))
  | .foreign object => e.call ts object args
  | other => raise ts (.notCallable other.typeName)

/-- Applies a prefix operator. -/
def applyUnary (e : Engine σ) (ts : InterpreterId) (op : UnaryOp) (operand : Value) :
    ScriptM σ Value :=
  match op with
  | .not => pure (.bool !operand.truthy)
  | .negate => do orRaise ts (negative (← numericView e ts operand))

/-- Applies an operator. -/
def applyBinary (e : Engine σ) (ts : InterpreterId) (op : BinaryOp) (left right : Value) :
    ScriptM σ Value :=
  match op with
  | .equal => do return .bool (← equals e ts left right)
  | .notEqual => do return .bool !(← equals e ts left right)
  | .within => do return .bool (← contains e ts right left)
  | .notWithin => do return .bool !(← contains e ts right left)
  | op => do
    let left ← numericView e ts left
    let right ← numericView e ts right
    match op with
    | .less | .greater | .lessEqual | .greaterEqual => orRaise ts (comparison op left right)
    | op => orRaise ts (arithmetic op left right)

def literalValue : Syntax.Literal → Value
  | .none => .none
  | .bool value => .bool value
  | .int value => .int value
  | .long value => .long value
  | .float value => .float value
  | .text value => .text value

/-- The value of the left operand decides whether the right one is evaluated. -/
def needsRight (op : LogicalOp) (left : Value) : Bool :=
  match op with
  | .and => left.truthy
  | .or => !left.truthy

mutual

/-- Evaluates an expression. -/
def eval (e : Engine σ) (ts : InterpreterId) (scope : Scope) : Expr → ScriptM σ Value
  | .literal value => nested ts (pure (literalValue value))
  | .name word => nested ts (scope.lookup ts word)
  | .tuple items => nested ts do return .tuple (← evalAll e ts scope items)
  | .attr object member => nested ts do getAttr e ts (← eval e ts scope object) member
  | .call callee args => nested ts do
    let callee ← eval e ts scope callee
    call e ts callee (← evalAll e ts scope args)
  | .index object key => nested ts do
    let object ← eval e ts scope object
    getItem e ts object (← eval e ts scope key)
  | .unary op operand => nested ts do applyUnary e ts op (← eval e ts scope operand)
  | .binary op left right => nested ts do
    let left ← eval e ts scope left
    applyBinary e ts op left (← eval e ts scope right)
  | .logical op left right => nested ts do
    let left ← eval e ts scope left
    if needsRight op left then eval e ts scope right else pure left
  | .lambda params body => nested ts (pure (.lambda params body scope.globals))

/-- Evaluates expressions in order. -/
def evalAll (e : Engine σ) (ts : InterpreterId) (scope : Scope) : List Expr → ScriptM σ (List Value)
  | [] => pure []
  | item :: rest => do
    let value ← eval e ts scope item
    return value :: (← evalAll e ts scope rest)

end

/-! ### Imports -/

/-- Calls the import entry of the interpreter. -/
def importModule (e : Engine σ) (ts : InterpreterId) (globals : ModuleRef) (path : String)
    (fromList : Value) : ScriptM σ Value := do
  match ← lookup? (← getInterpreter ts).builtins "__import__" with
  | some entry => call e ts entry [.text path, .module globals, .none, fromList]
  | none => raise ts .noImportEntry

/-- The names that a from-import asks for, as the import entry sees them. -/
def fromList : ImportNames → Value
  | .all => .tuple [.text "*"]
  | .listed names => .tuple (names.map fun (name, _) => .text name)

/-- The attributes of a foreign object with their names. -/
def foreignEntries (e : Engine σ) (ts : InterpreterId) (object : Foreign) :
    List String → ScriptM σ (List (String × Value))
  | [] => pure []
  | name :: rest => do
    let value ← e.getAttr ts object name
    return (name, value) :: (← foreignEntries e ts object rest)

/-- What `import *` binds. -/
def starEntries (e : Engine σ) (ts : InterpreterId) (module : Value) :
    ScriptM σ (List (String × Value)) :=
  match module with
  | .module m => publicEntries m
  | .foreign object => do foreignEntries e ts object (← e.attrNames object)
  | other => raise ts (.noImportableNames other.typeName)

/-- An attribute that a from-import asks for. -/
def importedName (e : Engine σ) (ts : InterpreterId) (module : Value) (name : String) :
    ScriptM σ Value := do
  match ← attempt (getAttr e ts module name) with
  | .ok value => pure value
  | .error raised =>
    if ← errorIsA ts .attr then raise ts (.noImportedName name) else throw raised

/-- Binds the names of a from-import one after the other. -/
def bindImported (e : Engine σ) (ts : InterpreterId) (globals : ModuleRef) (module : Value) :
    List (String × Option String) → ScriptM σ Unit
  | [] => pure ()
  | (name, newName) :: rest => do
    let value ← importedName e ts module name
    bindName globals (newName.getD name) value
    bindImported e ts globals module rest

def fromImport (e : Engine σ) (ts : InterpreterId) (globals : ModuleRef) (path : String)
    (names : ImportNames) : ScriptM σ Unit := do
  let module ← importModule e ts globals path (fromList names)
  match names with
  | .all => bindAll globals (← starEntries e ts module)
  | .listed names => bindImported e ts globals module names

/-! ### Statements -/

/-- Raises a value that a script named in a raise statement. -/
def raiseValue (ts : InterpreterId) (value : Value) : ScriptM σ Unit :=
  match value with
  | .errorType type => raiseException ts { type }
  | .errorInstance type message => raiseException ts { type, message }
  | other => raise ts (.notAnException other.typeName)

/-- Puts a value where an assignment says. -/
def assign (e : Engine σ) (ts : InterpreterId) (globals : ModuleRef) (target : Target)
    (value : Value) : ScriptM σ Unit :=
  match target with
  | .name word => bindName globals word value
  | .attr object member => do setAttr e ts (← eval e ts ⟨[], globals⟩ object) member value
  | .index object key => do
    let object ← eval e ts ⟨[], globals⟩ object
    setItem e ts object (← eval e ts ⟨[], globals⟩ key) value

/-- Executes a statement. -/
def execute (e : Engine σ) (ts : InterpreterId) (globals : ModuleRef) (mode : Mode) :
    Statement → ScriptM σ Unit
  | .expr expr => do
    let value ← eval e ts ⟨[], globals⟩ expr
    if mode = .single && !value.isNone then printLine (← repr e ts value)
  | .assign target value => do
    let value ← eval e ts ⟨[], globals⟩ value
    assign e ts globals target value
  | .imports path newName => do
    let module ← importModule e ts globals path .none
    bindName globals (newName.getD (ErrorType.lastSegment path)) module
  | .fromImport path names => fromImport e ts globals path names
  | .raise none => raise ts .nothingToReraise
  | .raise (some value) => do raiseValue ts (← eval e ts ⟨[], globals⟩ value)
  | .pass => pure ()

/-- Executes statements until one fails, which leaves its line in the trace. -/
def executeAll (e : Engine σ) (ts : InterpreterId) (globals : ModuleRef) (mode : Mode)
    (file : String) : Syntax.Program → ScriptM σ Unit
  | [] => pure ()
  | (line, statement) :: rest => do
    let outcome ← attempt (execute e ts globals mode statement)
    e.settle
    match outcome with
    | .ok () => executeAll e ts globals mode file rest
    | .error raised =>
      pushTrace ts file line
      throw raised

/-! ### Compilation -/

/-- Compiled source. -/
inductive Code where
  | expression (value : Expr)
  | statements (mode : Mode) (file : String) (program : Syntax.Program)

/-- Reports a text that was refused; a mistake in it is traced to its line. -/
def raiseSyntax {α : Type} (ts : InterpreterId) (file : String) (error : Syntax.SyntaxError) :
    ScriptM σ α :=
  let exception := (Fault.syntaxError error).exception
  raiseException ts
    (if error.isSyntax then exception.pushTrace file error.position.line else exception)

def compile (ts : InterpreterId) (source : String) (mode : Mode) (file : String) :
    ScriptM σ Code :=
  match mode with
  | .eval =>
    match Syntax.readExpr source with
    | .ok value => pure (.expression value)
    | .error error => raiseSyntax ts file error
  | mode =>
    match Syntax.readProgram source with
    | .ok program => pure (.statements mode file program)
    | .error error => raiseSyntax ts file error

/-- Runs compiled source in a namespace. Only an expression has a value. -/
def Code.run (code : Code) (e : Engine σ) (ts : InterpreterId) (globals : ModuleRef) :
    ScriptM σ Value :=
  match code with
  | .expression value => eval e ts ⟨[], globals⟩ value
  | .statements mode file program => do
    executeAll e ts globals mode file program
    return .none

/-- Compiles and runs a source text. -/
def execSource (e : Engine σ) (ts : InterpreterId) (source : String) (mode : Mode) (file : String)
    (globals : ModuleRef) : ScriptM σ Value := do
  (← compile ts source mode file).run e ts globals

end ScriptBridge.Script
