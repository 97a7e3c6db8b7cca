import ScriptBridge.Context.Lifecycle

/-!
# Operations on contexts

What the Host asks of an open context: to run and check source, to evaluate expressions, to call
what a script has defined, and to bind names. A value that a script keeps for the Host is known by
a handle. What can be refused without running anything is refused before the context is entered.
-/

namespace ScriptBridge.Context

open Bridge (World State Failure BridgeM ContextId Machine getState modifyContext)
open Host (ObjectId ClassId)
open Script (InterpreterId ModuleRef)

/-- A value that the Host keeps, by its number in the context. -/
structure Handle where
  number : Nat
deriving DecidableEq, Repr

inductive CompileStatus where
  | complete | incomplete
deriving DecidableEq, Repr

/-- A value that the Host binds to a name. -/
inductive GlobalValue where
  | object (object : Option ObjectId)
  | type (described : ClassId)
  | text (text : Option String)
  | int (value : Int32)
  | long (value : Int64)
  | double (value : Float)
  | float (value : Float32)

/-- What the Host calls. -/
inductive Callable where
  /-- A dotted name, looked up in the top-level namespace. -/
  | named (name : String)
  | handle (handle : Handle)
  /-- An attribute of the value behind a handle. -/
  | method (handle : Handle) (name : String)

/-- The file that traces name for source that comes from no file. -/
def stringFile : String := "<string>"

/-! ### Handles -/

/-- Keeps a value for the Host. -/
def store {ε : Type} (c : ContextId) (value : Script.Value) : EStateM ε World Handle := do
  let number := (← Bridge.getContext c).nextHandle
  modifyContext c fun x =>
    { x with handles := x.handles ++ [(number, value)], nextHandle := number + 1 }
  return ⟨number⟩

def handleValue? (context : Bridge.Context) (h : Handle) : Option Script.Value :=
  context.handles.lookup h.number

/-- The module behind a handle; without a handle, the top-level namespace. -/
def handleModule (context : Bridge.Context) (h : Option Handle) : Operation ModuleRef := do
  match h with
  | none => return (← Script.getInterpreter context.state).main
  | some h =>
    match handleValue? context h with
    | some (.module m) => return m
    | _ => throw .badModule

/-- Lets go of a handle; one that does not exist is ignored. -/
def releaseHandle (x : Machine) (c : ContextId) (h : Handle) : Operation Unit :=
  within x c fun _ => do
    let context ← Bridge.getContext c
    modifyContext c fun x => { x with handles := x.handles.filter (·.1 != h.number) }
    release (handleValue? context h).toList

/-- The text of the value behind a handle. -/
def handleText (x : Machine) (c : ContextId) (h : Handle) : Operation String :=
  within x c fun ts => do
    match handleValue? (← Bridge.getContext c) h with
    | some value => Script.toText x.engine ts value
    | none => Bridge.complain ts .name s!"handle {h.number} is not live"

/-! ### Source -/

/-- Runs source in the top-level namespace. -/
def execute (x : Machine) (mode : Script.Mode) (file source : String) (ts : InterpreterId) :
    BridgeM Script.Value := do
  Script.execSource x.engine ts source mode file (← Script.getInterpreter ts).main

/-- Runs a script file, given its text or why it cannot be read. -/
def run (x : Machine) (c : ContextId) (path : String) (content : Except String String) :
    Operation Unit := do
  match content with
  | .error reason => throw (.scriptFile path reason)
  | .ok source =>
    let _ ← within x c (execute x .file path source)

/-- Whether source is a complete statement. A mistake in it means that more has to follow. -/
def check (x : Machine) (c : ContextId) (source : String) : Operation CompileStatus :=
  within x c fun ts => do
    match ← Script.attempt (Script.compile (σ := State) ts source .single "<stdin>") with
    | .ok _ => return .complete
    | .error raised =>
      if ← Script.errorIsA ts .parsing then
        Script.clearError ts
        return .incomplete
      else throw raised

/-- Runs one interactive statement. -/
def eval (x : Machine) (c : ContextId) (source : String) : Operation Unit := do
  let _ ← within x c (execute x .single stringFile source)

/-- The value of an expression as a Host object, maybe inside a module that was made before. -/
def evalForValue (x : Machine) (c : ContextId) (expression : String) (module : Option Handle) :
    Operation (Option ObjectId) := do
  let globals ← handleModule (← lookup c) module
  within x c fun ts => do
    Bridge.box x.bodies ts (← Script.execSource x.engine ts expression .eval stringFile globals)

/-- Keeps the value of an expression. -/
def evalForHandle (x : Machine) (c : ContextId) (expression : String) : Operation Handle :=
  within x c fun ts => do store c (← execute x .eval stringFile expression ts)

/-! ### Calls -/

/-- The kinds of arguments by their numbers, which have to be those of null and of references. -/
def referenceKinds : List Int → Operation (List (Option Bridge.Kind))
  | [] => pure []
  | id :: rest => do
    match (Bridge.Kind.ofId? id).filter fun kind => kind.all (·.isReference) with
    | some kind => return kind :: (← referenceKinds rest)
    | none => throw (.badTypeId id)

/-- The attribute of an attribute, and so on. -/
def followAttrs (x : Machine) (ts : InterpreterId) (value : Script.Value) :
    List String → BridgeM Script.Value
  | [] => pure value
  | part :: rest => do
    let value ← Script.getAttr x.engine ts value part
    followAttrs x ts value rest

/-- The value of a dotted name in the top-level namespace. -/
def resolveDotted (x : Machine) (ts : InterpreterId) (name : String) : BridgeM Script.Value := do
  let i ← Script.getInterpreter ts
  match name.splitOn "." with
  | [] => Script.raise ts (.undefinedName name)
  | first :: parts =>
    match (← Script.lookup? i.main first).or (← Script.lookup? i.builtins first) with
    | none => Script.raise ts (.undefinedName first)
    | some value => followAttrs x ts value parts

/-- The value to call. A handle has been read before the context was entered. -/
def callee (x : Machine) (ts : InterpreterId) (target : Option Script.Value) :
    Callable → BridgeM Script.Value
  | .named name => resolveDotted x ts name
  | .handle _ => pure (target.getD .none)
  | .method _ name => Script.getAttr x.engine ts (target.getD .none) name

/-- Host objects as arguments of a script function, by the kinds they were given with. -/
def unboxAll (x : Machine) (ts : InterpreterId) :
    List (Option ObjectId × Option Bridge.Kind) → BridgeM (List Script.Value)
  | [] => pure []
  | (_, none) :: rest => do return .none :: (← unboxAll x ts rest)
  | (arg, some kind) :: rest => do
    let value ← Bridge.unbox x.bodies ts arg kind
    return value :: (← unboxAll x ts rest)

/-- The value behind the handle of a callable. -/
def callTarget (context : Bridge.Context) : Callable → Operation (Option Script.Value)
  | .named _ => pure none
  | .handle h | .method h _ =>
    match handleValue? context h with
    | some value => pure (some value)
    | none => throw (.unavailable s!"script handle {h.number} is not live")

/-- Calls a script function with Host objects, whose kinds are given by numbers. -/
def invoke (x : Machine) (c : ContextId) (callable : Callable) (args : List (Option ObjectId))
    (ids : List Int) : Operation (Option ObjectId) := do
  let kinds ← referenceKinds ids
  if kinds.length ≠ args.length then
    throw (.typeMismatch (min kinds.length args.length + 1)
      s!"invoke: {args.length} arguments but {kinds.length} type ids")
  let target ← callTarget (← lookup c) callable
  within x c fun ts => do
    let callee ← callee x ts target callable
    let converted ← unboxAll x ts (args.zip kinds)
    Bridge.box x.bodies ts (← Script.call x.engine ts callee converted)

/-! ### Names -/

/-- Makes a module and binds it in the top-level namespace or in another module, in whose name its
own name then begins. -/
def createModule (x : Machine) (c : ContextId) (name : String) (parent : Option Handle) :
    Operation Handle := do
  let owner ← handleModule (← lookup c) parent
  within x c fun ts => do
    let qualified := if parent.isSome then owner.name ++ "." ++ name else name
    let module ← Script.newModule qualified .created
    Script.bindName module "__name__" (.text qualified)
    Script.addModule ts module
    Script.bindName owner name (.module module)
    store c (.module module)

/-- The script value of a value that the Host binds. -/
def globalScript (x : Machine) (ts : InterpreterId) : GlobalValue → BridgeM Script.Value
  | .object o => Bridge.unboxObject x.bodies ts o
  | .type described => Bridge.viewClass described
  | .text text => pure ((text.map .text).getD .none)
  | .int value => pure (.int value.toInt64)
  | .long value => pure (.long value)
  | .double value => pure (.float value)
  | .float value => pure (.float value.toFloat)

/-- Binds a Host value to a name in the top-level namespace or in a module. -/
def setGlobal (x : Machine) (c : ContextId) (name : String) (value : GlobalValue)
    (target : Option Handle) : Operation Unit := do
  let scope ← handleModule (← lookup c) target
  within x c fun ts => do Script.bindName scope name (← globalScript x ts value)

end ScriptBridge.Context
