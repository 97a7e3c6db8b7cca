import ScriptBridge.Bridge.Convert

/-!
# Calling Host methods from scripts

One of several overloads is chosen by the number of arguments and by what they fit; a single
overload is always chosen, so that its refusal can name the argument at fault. Arguments are
converted by the parameters and the result by the declared return type.
-/

namespace ScriptBridge.Bridge

open Host (ClassId ObjectId Bodies)
open Script (InterpreterId)

/-- Every argument fits its parameter. -/
def argumentsFit (ts : InterpreterId) : List (Script.Value × ClassId) → BridgeM Bool
  | [] => pure true
  | (arg, param) :: rest => do
    if ← matchesParam arg param (← kindOf ts param) then argumentsFit ts rest else return false

/-- The first overload that all arguments fit. -/
def firstFitting (bodies : Bodies World) (ts : InterpreterId) (args : List Script.Value) :
    List Host.Method → BridgeM Host.Method
  | [] => complain ts .runtime "Matching overloaded method not found."
  | candidate :: rest => do
    let params ← hostCall bodies ts (Host.findClasses candidate.params)
    if ← argumentsFit ts (args.zip params) then return candidate
    else firstFitting bodies ts args rest

/-- The overload to call. -/
def selectOverload (bodies : Bodies World) (ts : InterpreterId) (overloads : List Host.Method)
    (args : List Script.Value) : BridgeM Host.Method :=
  match overloads with
  | [only] => pure only
  | overloads =>
    match overloads.filter (·.arity == args.length) with
    | [only] => pure only
    | candidates => firstFitting bodies ts args candidates

/-- Converts arguments for their parameters; `position` is that of the first one. -/
def coerceAll (bodies : Bodies World) (ts : InterpreterId) (position : Nat) :
    List (Script.Value × ClassId) → BridgeM (List Host.Value)
  | [] => pure []
  | (arg, param) :: rest => do
    let value ← coerce bodies ts arg param (← kindOf ts param) position
    return value :: (← coerceAll bodies ts (position + 1) rest)

/-- The arguments for a method. -/
def coerceArguments (bodies : Bodies World) (ts : InterpreterId) (method : Host.Method)
    (args : List Script.Value) : BridgeM (List Host.Value) := do
  if args.length ≠ method.arity then
    complain ts .runtime
      s!"Invalid number of arguments: {args.length}, expected {method.arity}."
  let params ← hostCall bodies ts (Host.findClasses method.params)
  coerceAll bodies ts 1 (args.zip params)

/-- Calls a method with script values. -/
def invoke (bodies : Bodies World) (ts : InterpreterId) (target : Option ObjectId)
    (method : Host.Method) (args : List Script.Value) : BridgeM Script.Value := do
  registerExceptions ts method
  let converted ← coerceArguments bodies ts method args
  let result ← hostCall bodies ts (Host.callMethod bodies target method converted)
  let kind ← kindOf ts (← hostCall bodies ts (Host.findClass method.returnType))
  if kind = .void then return .none
  toScript bodies ts result kind

/-- Calls a class, which makes an object of it. -/
def instantiate (bodies : Bodies World) (ts : InterpreterId) (c : ClassId)
    (args : List Script.Value) : BridgeM Script.Value := do
  let constructors := (← Host.getRealm).constructors c
  if constructors.isEmpty then complain ts .type "No public constructor"
  let constructor ← selectOverload bodies ts constructors args
  let converted ← coerceArguments bodies ts constructor args
  viewObject (← hostCall bodies ts (Host.newObject bodies c constructor converted))

/-- The complaint about an object method that is called on its class. -/
def needsInstance {α : Type} (ts : InterpreterId) : BridgeM α :=
  complain ts .runtime "Instantiate this class before calling an object method."

/-- Calls the methods of one name. -/
def callOverloads (bodies : Bodies World) (ts : InterpreterId) (target : Option ObjectId)
    (overloads : List Host.Method) (args : List Script.Value) : BridgeM Script.Value := do
  let method ← selectOverload bodies ts overloads args
  if !method.isStatic && target.isNone then needsInstance ts
  invoke bodies ts target method args

end ScriptBridge.Bridge
