import ScriptBridge.Decimal.Reader
import ScriptBridge.Script.Protocol
import ScriptBridge.Text.Blank

/-!
# Built-in functions

Conversions, printing, and the import entry that every interpreter starts with.
-/

namespace ScriptBridge.Script

variable {σ : Type}

/-- The whole number that a value converts to. -/
def toInteger (value : Value) : Except Fault Int64 :=
  match value with
  | .bool b => .ok (boolNumber b)
  | .int i | .long i => .ok i
  | .float x =>
    if !x.isFinite || x ≥ 9223372036854775808.0 || x < -9223372036854775808.0 then
      .error .floatToInteger
    else .ok x.toInt64
  | .text text =>
    match Decimal.readInt64? (Text.trimChars text.toList) with
    | some i => .ok i
    | none => .error (.integerText text)
  | other => .error (.integerArgument other.typeName)

/-- The float that a value converts to. -/
def toFloat (value : Value) : Except Fault Float :=
  match value with
  | .bool b => .ok (boolNumber b).toFloat
  | .int i | .long i => .ok i.toFloat
  | .float x => .ok x
  | .text text =>
    match Decimal.readFloat? (Text.trimChars text.toList) with
    | some x => .ok x
    | none => .error (.floatText text)
  | other => .error (.floatArgument other.typeName)

/-- The only argument of a function. -/
def single (function : String) : List Value → Except Fault Value
  | [value] => .ok value
  | args => .error (.builtinArity function args.length)

/-- The dotted path that an import entry is called with. -/
def importPath : List Value → Except Fault String
  | .text path :: _ => .ok path
  | _ => .error .importName

/-- Import without a Host: the modules of the interpreter, then those that the runtime shares.
A module made from a Host package is looked up anew each time. -/
def nativeImport (ts : InterpreterId) (path : String) : ScriptM σ Value := do
  let i ← getInterpreter ts
  let shared := ((← getMemory).runtime i.runtime).extensions.get? path
  match (i.modules.get? path).filter (·.origin != .hostPackage), shared with
  | some m, _ => pure (.module m)
  | none, some m =>
    modifyInterpreter ts fun i => { i with modules := i.modules.insert m.name m }
    pure (.module m)
  | none, none => raise ts (.noModule path)

/-- `__import__` without a Host. -/
def defaultImport (ts : InterpreterId) (args : List Value) : ScriptM σ Value := do
  nativeImport ts (← orRaise ts (importPath args))

/-- Texts of several values. -/
def toTexts (e : Engine σ) (ts : InterpreterId) : List Value → ScriptM σ (List String)
  | [] => pure []
  | value :: rest => do
    let text ← toText e ts value
    return text :: (← toTexts e ts rest)

/-- The attribute names that `dir` lists. -/
def attrNames (e : Engine σ) : Value → ScriptM σ (List String)
  | .module m => do return ((← getMemory).namespaceOf m).names
  | .foreign object => e.attrNames object
  | _ => pure []

/-- Calls a function that is not written in the script language. -/
def callNative (e : Engine σ) (ts : InterpreterId) (function : Native) (args : List Value) :
    ScriptM σ Value :=
  match function with
  | .defaultImport => defaultImport ts args
  | .print => do
    printLine (String.intercalate " " (← toTexts e ts args))
    return .none
  | .str => do return .text (← toText e ts (← orRaise ts (single "str" args)))
  | .repr => do return .text (← repr e ts (← orRaise ts (single "repr" args)))
  | .len => do return .int (.ofNat (← length e ts (← orRaise ts (single "len" args))))
  | .bool => do return .bool (← orRaise ts (single "bool" args)).truthy
  | .int => do
    let value ← numericView e ts (← orRaise ts (single "int" args))
    return .int (← orRaise ts (toInteger value))
  | .long => do return .long (← orRaise ts (single "long" args >>= toInteger))
  | .float => do
    let value ← numericView e ts (← orRaise ts (single "float" args))
    return .float (← orRaise ts (toFloat value))
  | .dir => do
    let names ← attrNames e (← orRaise ts (single "dir" args))
    return .tuple (names.map .text)
  | .math function => do
    return .float (function.apply (← orRaise ts (single "math function" args >>= toFloat)))
  | .extension function => e.extension ts function args

/-- The built-in namespace of a new interpreter. -/
def builtinEntries : List (String × Value) :=
  Family.all.map (fun family => (family.title, .errorType (.builtin family))) ++
    [("None", .none)] ++
    [Native.defaultImport, .print, .str, .repr, .len, .bool, .int, .long, .float, .dir].map
      fun function => (function.title, .native function)

/-- The ratio of a circle's circumference to its diameter. -/
def pi : Float := 3.141592653589793

/-- The base of the natural logarithm. -/
def euler : Float := 2.718281828459045

/-- The namespace of the math module. -/
def mathEntries : List (String × Value) :=
  [("pi", .float pi), ("e", .float euler)] ++
    MathFn.all.map fun function => (function.title, .native (.math function))

end ScriptBridge.Script
