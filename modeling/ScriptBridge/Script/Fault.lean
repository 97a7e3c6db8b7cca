import ScriptBridge.Script.World
import ScriptBridge.Syntax.SyntaxError

/-!
# Faults

The mistakes that the script language itself finds, each with the family of errors it belongs to
and its wording.
-/

namespace ScriptBridge.Script

open Syntax (BinaryOp SyntaxError)

/-- The nesting of lambda calls that is allowed. -/
def maxRecursion : Nat := 100

/-- The nesting of expressions that is allowed, across calls. -/
def maxNesting : Nat := 300

inductive Fault where
  | syntaxError (error : SyntaxError)
  | undefinedName (name : String)
  | nothingToReraise
  | notAnException (type : String)
  | noImportEntry
  | noModule (path : String)
  | noImportableNames (type : String)
  | noImportedName (name : String)
  | importName
  | noAttribute (type name : String)
  | readOnlyAttribute (type name : String)
  | notCallable (type : String)
  | notSubscriptable (type : String)
  | noItemAssignment (type : String)
  | noLength (type : String)
  | notIterable (type : String)
  | textMembership (type : String)
  | indexType (type : String)
  | indexRange
  | lambdaArity (expected given : Nat)
  | builtinArity (function : String) (given : Nat)
  | badNegation (type : String)
  | badOperands (op : BinaryOp) (left right : String)
  | notOrdered (op : BinaryOp) (left right : String)
  | integerOverflow
  | integerDivision
  | floatDivision
  | floatModulo
  | textTooLarge
  | floatToInteger
  | integerText (text : String)
  | floatText (text : String)
  | integerArgument (type : String)
  | floatArgument (type : String)
  | recursion
  | nesting
deriving DecidableEq

namespace Fault

def family : Fault → Family
  | syntaxError error => if error.isSyntax then .parsing else .memory
  | undefinedName _ => .name
  | nothingToReraise | recursion => .runtime
  | noImportEntry | noModule _ | noImportableNames _ | noImportedName _ => .importing
  | noAttribute _ _ | readOnlyAttribute _ _ => .attr
  | indexRange => .index
  | integerOverflow | floatToInteger => .overflow
  | integerDivision | floatDivision | floatModulo => .zeroDivision
  | textTooLarge | nesting => .memory
  | integerText _ | floatText _ => .value
  | notAnException _ | importName | notCallable _ | notSubscriptable _ | noItemAssignment _
  | noLength _ | notIterable _ | textMembership _ | indexType _ | lambdaArity _ _
  | builtinArity _ _ | badNegation _ | badOperands _ _ _ | notOrdered _ _ _
  | integerArgument _ | floatArgument _ => .type

def message : Fault → String
  | syntaxError error => error.message
  | undefinedName name => s!"name '{name}' is not defined"
  | nothingToReraise => "No active exception to reraise"
  | notAnException type => s!"exceptions must derive from Exception, not {type}"
  | noImportEntry => "__import__ not found"
  | noModule path => s!"No module named {path}"
  | noImportableNames type => s!"cannot import * from '{type}'"
  | noImportedName name => s!"cannot import name {name}"
  | importName => "__import__() argument 1 must be string"
  | noAttribute type name => s!"'{type}' object has no attribute '{name}'"
  | readOnlyAttribute type name => s!"'{type}' object attribute '{name}' is read-only"
  | notCallable type => s!"'{type}' object is not callable"
  | notSubscriptable type => s!"'{type}' object is not subscriptable"
  | noItemAssignment type => s!"'{type}' object does not support item assignment"
  | noLength type => s!"object of type '{type}' has no len()"
  | notIterable type => s!"argument of type '{type}' is not iterable"
  | textMembership type => s!"'in <string>' requires string as left operand, not {type}"
  | indexType type => s!"indices must be integers, not {type}"
  | indexRange => "index out of range"
  | lambdaArity expected given => s!"<lambda>() takes exactly {expected} arguments ({given} given)"
  | builtinArity function given => s!"{function}() takes exactly 1 argument ({given} given)"
  | badNegation type => s!"bad operand type for unary -: '{type}'"
  | badOperands op left right =>
    s!"unsupported operand type(s) for {op.spelling}: '{left}' and '{right}'"
  | notOrdered op left right => s!"'{op.spelling}' not supported between '{left}' and '{right}'"
  | integerOverflow => "integer overflow"
  | integerDivision => "integer division or modulo by zero"
  | floatDivision => "float division by zero"
  | floatModulo => "float modulo"
  | textTooLarge => "repeated string is too large"
  | floatToInteger => "cannot convert float to integer"
  | integerText text => s!"invalid literal for int() with base 10: '{text}'"
  | floatText text => s!"could not convert string to float: {text}"
  | integerArgument type => s!"int() argument must be a string or a number, not '{type}'"
  | floatArgument type => s!"float() argument must be a string or a number, not '{type}'"
  | recursion => "maximum recursion depth exceeded"
  | nesting => "expression nested too deeply"

/-- A missing module is remembered with its path. -/
def detail? : Fault → Option Detail
  | noModule path => some (.importPath path)
  | _ => none

def exception (f : Fault) : Exception :=
  { type := .builtin f.family, message := some f.message, detail := f.detail? }

end Fault

variable {σ α : Type}

/-- Fails with a fault. -/
def raise (ts : InterpreterId) (fault : Fault) : ScriptM σ α := raiseException ts fault.exception

/-- Runs a step while a counter of the interpreter is one higher. -/
def guarded (ts : InterpreterId) (count : Interpreter → Nat) (set : Nat → Interpreter → Interpreter)
    (limit : Nat) (fault : Fault) (step : ScriptM σ α) : ScriptM σ α := fun w =>
  let shift (f : Nat → Nat) (w : World σ) : World σ :=
    w.onMemory (·.onInterpreter ts fun i => set (f (count i)) i)
  if limit ≤ count (w.memory.interpreter ts) then raise ts fault w
  else
    match step (shift (· + 1) w) with
    | .ok a w => .ok a (shift (· - 1) w)
    | .error e w => .error e (shift (· - 1) w)

/-- Evaluates one level deeper. -/
def nested (ts : InterpreterId) (step : ScriptM σ α) : ScriptM σ α :=
  guarded ts (·.nesting) (fun n i => { i with nesting := n }) maxNesting .nesting step

/-- Runs the body of a lambda. -/
def inCall (ts : InterpreterId) (step : ScriptM σ α) : ScriptM σ α :=
  guarded ts (·.depth) (fun n i => { i with depth := n }) maxRecursion .recursion step

/-- Gives a computation up. -/
def giveUp : ScriptM σ α := do
  modifyMemory fun m => { m with exhausted := true }
  throw {}

end ScriptBridge.Script
